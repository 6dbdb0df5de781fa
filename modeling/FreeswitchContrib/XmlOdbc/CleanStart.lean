import FreeswitchContrib.XmlOdbc.Rendering
import Mathlib.Data.List.Chain
import Mathlib.Tactic.SplitIfs

/-!
# A template starts clean after a break

What a template comes to when it is rendered alone is `childrenAlone`: without a helper, from an
event to the tags, the event then and the template to break to.  The functions of the module hand one
helper to each other, and the cursors of it and the count of the rows are saved and restored by hand.

* `Renders` — what a function may have done to the helper: some tags were added at `xml_out_cur`.
* **`renderChildrenAt_renders`** — the children of a tag are rendered as they are alone.
* **`render_template_starts_clean`** — `xml_odbc_render_template` ends, and the tree that it succeeds
  with is that of the last template alone.
-/

namespace FreeswitchContrib.XmlOdbc

open CString RoseTree

variable {Event : Type} (core : Core Event)

/-! ## Rendering alone -/

/-- What rendering comes to. -/
structure Outcome (Event : Type) where
  tags : List (RoseTree Element)
  event : Event
  /-- the template to go on with; empty where there is no break -/
  breakTo : Text

namespace Outcome

def nothing (event : Event) : Outcome Event := ⟨[], event, []⟩

/-- After a break nothing more is rendered. -/
def andThen (outcome : Outcome Event) (next : Event → Outcome Event) : Outcome Event :=
  if outcome.breakTo ≠ [] then outcome
  else { next outcome.event with tags := outcome.tags ++ (next outcome.event).tags }

end Outcome

open Outcome

/-- The children are rendered once for each row. -/
def rowsAlone (children : Event → Outcome Event) : List Row → Event → Outcome Event
  | [], event => nothing event
  | row :: rows, event =>
    (children (addColumns core event row)).andThen fun event => rowsAlone children rows event

/-- A query renders its children for its rows, or breaks where there is none. -/
def queryAlone (tag : Opening) (children : Event → Outcome Event) (event : Event) :
    Outcome Event :=
  let emptyResultBreakTo := tag.attrSoft "on-empty-result-break-to".toList
  match core.exec (core.expandHeaders event (tag.attrSoft "value".toList)) with
  | none => nothing event
  | some [] => { nothing event with breakTo := emptyResultBreakTo }
  | some rows => rowsAlone core children rows event

/-- What an `xml-odbc-do` comes to. -/
def commandAlone (tag : Opening) (children : Event → Outcome Event) (event : Event) :
    Outcome Event :=
  let name := tag.attrSoft "name".toList
  if name = [] then nothing event
  else if strcasecmp name "break-to".toList then
    { nothing event with breakTo := core.expandHeaders event (tag.attrSoft "value".toList) }
  else if strcasecmp name "check-event-header".toList ∨
      strcasecmp name "set-event-header".toList then
    match eventHeader core tag event with
    | .error _ => nothing event
    | .ok event => children event
  else if strcasecmp name "query".toList then queryAlone core tag children event
  else nothing event

def expandedAttrs (tag : Opening) (event : Event) : List (Text × Text) :=
  tag.attrs.foldl (fun attrs attr => setAttr attrs attr.1 (core.expandHeaders event attr.2)) []

mutual

/-- What a tag of a template comes to. -/
def tagAlone : Tag → Event → Outcome Event
  | .node tag children, event =>
    if strcasecmp tag.name "xml-odbc-do".toList then
      commandAlone core tag (fun event => childrenAlone children event) event
    else
      let inner := childrenAlone children event
      { inner with tags := [.node ⟨tag.name, expandedAttrs core tag event⟩ inner.tags] }

/-- What the tags of a template come to, one after the other. -/
def childrenAlone : List Tag → Event → Outcome Event
  | [], event => nothing event
  | child :: rest, event =>
    (tagAlone child event).andThen fun event => childrenAlone rest event

end

/-- The tree of which the first tag is the root. -/
def asRoot : List (RoseTree Element) → RoseTree Element
  | [] => .node ⟨[], []⟩ []
  | tag :: tags => .node tag.label (tag.children ++ tags)

/-- The call of a template breaks to the next one. -/
def BreaksTo (globals : Globals) (call next : Text × Event) : Prop :=
  match findTemplate globals call.1 with
  | some template =>
    let alone := childrenAlone core template.children call.2
    alone.breakTo ≠ [] ∧ next = (alone.breakTo, alone.event)
  | none => next = ("not-found".toList, call.2)

/-! ## Where tags are added -/

/-- The tags that are rendered into a tag: the first one gives a root its name. -/
def emit (tags : List (RoseTree Element)) (parent : RoseTree Element) : RoseTree Element :=
  if parent.label.name = [] then asRoot tags else .node parent.label (parent.children ++ tags)

/-- A tag that has its name, or the root before the first tag. -/
def Ready (tag : RoseTree Element) : Prop := tag.label.name ≠ [] ∨ tag = .node ⟨[], []⟩ []

/-- `xml_out` without the offsets. -/
def Helper.shown (helper : Helper Event) : RoseTree Element := helper.xmlOut.map OutTag.toElement

/-- `xml_out_cur` is at this tag, and what comes next comes behind all other tags. -/
structure At (helper : Helper Event) (tag : RoseTree Element) : Prop where
  place : helper.shown.get? helper.xmlOutCur = some tag
  ready : Ready tag
  offs : helper.xmlOut.All (·.off ≤ helper.xmlOutCurOff)

/-- The helper after something has been rendered. -/
structure Renders (before after : Helper Event) (outcome : Outcome Event) : Prop where
  breakTo : after.nextTemplateName = outcome.breakTo
  event : after.event = outcome.event
  count : after.renderTemplateCount = before.renderTemplateCount
  out : after.shown = before.shown.modify before.xmlOutCur (emit outcome.tags)
  offs : after.xmlOut.All (·.off ≤ after.xmlOutCurOff)
  named : ∀ tag ∈ outcome.tags, tag.label.name ≠ []

variable {tags more : List (RoseTree Element)} {parent : RoseTree Element}

lemma emit_unnamed (h : parent.label.name = []) : emit tags parent = asRoot tags := if_pos h

lemma emit_named (h : parent.label.name ≠ []) :
    emit tags parent = .node parent.label (parent.children ++ tags) := if_neg h

lemma emit_nil (hparent : Ready parent) : emit [] parent = parent := by
  rcases hparent with hname | rfl
  · rw [emit_named hname, List.append_nil]
    cases parent
    rfl
  · rfl

lemma ready_emit (hnamed : ∀ tag ∈ tags, tag.label.name ≠ []) : Ready (emit tags parent) := by
  by_cases hname : parent.label.name = []
  · rw [emit_unnamed hname]
    cases tags with
    | nil => exact Or.inr rfl
    | cons tag tags => exact Or.inl (hnamed tag List.mem_cons_self)
  · rw [emit_named hname]
    exact Or.inl hname

lemma emit_emit (hnamed : ∀ tag ∈ tags, tag.label.name ≠ []) :
    emit more (emit tags parent) = emit (tags ++ more) parent := by
  by_cases hname : parent.label.name = []
  · rw [emit_unnamed hname, emit_unnamed hname]
    cases tags with
    | nil => exact emit_unnamed rfl
    | cons tag tags =>
      have htag : (asRoot (tag :: tags)).label.name ≠ [] := hnamed tag List.mem_cons_self
      rw [emit_named htag]
      exact congrArg _ (List.append_assoc _ _ _)
  · rw [emit_named hname, emit_named hname]
    have hopen : (RoseTree.node parent.label (parent.children ++ tags)).label.name ≠ [] := hname
    rw [emit_named hopen]
    exact congrArg _ (List.append_assoc _ _ _)

variable {before mid after helper : Helper Event} {outcome : Outcome Event}

/-- Nothing is rendered. -/
lemma renders_nothing (hat : At helper parent) (hnext : helper.nextTemplateName = []) :
    Renders helper helper (nothing helper.event) where
  breakTo := hnext
  event := rfl
  count := rfl
  out := ((modify_congr hat.place (emit_nil hat.ready)).trans (modify_id _ _)).symm
  offs := hat.offs
  named := fun _ h => nomatch h

/-- Back at the tag, which has what was rendered. -/
lemma Renders.at (h : Renders before after outcome) (hat : At before parent) :
    At { after with xmlOutCur := before.xmlOutCur } (emit outcome.tags parent) where
  place := by
    show after.shown.get? _ = _
    rw [h.out, get?_modify, hat.place, Option.map_some]
  ready := ready_emit h.named
  offs := h.offs

/-- Something is rendered after something else that did not break. -/
lemma Renders.andThen {next : Event → Outcome Event} (h : Renders before mid outcome)
    (hbreak : outcome.breakTo = []) (hat : At before parent)
    (hthen : Renders { mid with xmlOutCur := before.xmlOutCur } after (next outcome.event)) :
    Renders before after (outcome.andThen next) := by
  rw [Outcome.andThen, if_neg (not_not_intro hbreak)]
  refine ⟨hthen.breakTo, hthen.event, hthen.count.trans h.count, ?_, hthen.offs, ?_⟩
  · have hout : after.shown = mid.shown.modify before.xmlOutCur (emit (next outcome.event).tags) :=
      hthen.out
    rw [hout, h.out, modify_modify]
    exact modify_congr hat.place (emit_emit h.named)
  · intro tag htag
    rcases List.mem_append.mp htag with htag | htag
    · exact h.named tag htag
    · exact hthen.named tag htag

/-! ## Tags -/

/-- A tag was begun: it is empty, and what is put in its place counts as rendered before. -/
structure Opens (helper opened : Helper Event) (tag : Opening) : Prop where
  same : opened.event = helper.event ∧ opened.nextTemplateName = helper.nextTemplateName ∧
    opened.xmlInCur = helper.xmlInCur ∧ opened.renderTemplateCount = helper.renderTemplateCount
  place : opened.shown.get? opened.xmlOutCur = some (.node ⟨tag.name, []⟩ [])
  offs : opened.xmlOut.All (·.off ≤ opened.xmlOutCurOff)
  filled : ∀ t : RoseTree Element, opened.shown.modify opened.xmlOutCur (fun _ => t) =
    helper.shown.modify helper.xmlOutCur (emit [t])

/-- A tag with a name gets a new child behind the others. -/
lemma insertTag_last {tag : OutTag} {cur : RoseTree OutTag}
    (hoffs : cur.All (·.off ≤ tag.off)) :
    insertTag tag cur = .node cur.label (cur.children ++ [.node tag []]) ∧
      (cur.children.takeWhile (·.label.off ≤ tag.off)).length = cur.children.length := by
  have hall : ∀ c ∈ cur.children, decide (c.label.off ≤ tag.off) = true := by
    intro c hc
    exact decide_eq_true (hoffs.child hc).label
  rw [insertTag, List.takeWhile_eq_self_iff.mpr hall, List.dropWhile_eq_nil_iff.mpr hall]
  exact ⟨rfl, rfl⟩

lemma all_insertTag {p : OutTag → Prop} {tag : OutTag} {cur : RoseTree OutTag} (h : cur.All p)
    (htag : p tag) : (insertTag tag cur).All p := by
  refine .node h.label ?_
  intro c hc
  rcases List.mem_append.mp hc with hc | hc
  · exact h.child ((List.takeWhile_subset _) hc)
  rcases List.mem_cons.mp hc with rfl | hc
  · exact .node htag fun _ h => nomatch h
  · exact h.child ((List.dropWhile_subset _) hc)

/-- The place of `xml_out_cur` in the tree with the offsets. -/
lemma At.cur (hat : At helper parent) :
    ∃ cur, helper.xmlOut.get? helper.xmlOutCur = some cur ∧
      cur.map OutTag.toElement = parent := by
  have hplace := hat.place
  rw [Helper.shown, get?_map] at hplace
  obtain ⟨cur, hcur, hparent⟩ := Option.map_eq_some_iff.mp hplace
  exact ⟨cur, hcur, hparent⟩

lemma copyTag_opens_root (tag : Opening) (hat : At helper parent)
    (hname : parent.label.name = []) :
    ∃ opened, copyTag tag helper = some opened ∧ Opens helper opened tag := by
  obtain ⟨cur, hcur, hparent⟩ := hat.cur
  have hempty : parent = .node ⟨[], []⟩ [] := hat.ready.resolve_left (not_not_intro hname)
  have hcurname : cur.label.name = [] := by
    rw [← hparent, label_map] at hname
    exact hname
  have hshown : (helper.xmlOut.modify helper.xmlOutCur
      (onTag fun out => { out with name := tag.name })).map OutTag.toElement =
        helper.shown.modify helper.xmlOutCur fun _ => .node ⟨tag.name, []⟩ [] := by
    refine map_modify hcur ?_
    have hattrs : cur.label.attrs = [] ∧ cur.children.map (map OutTag.toElement) = [] := by
      rw [hempty] at hparent
      have hlabel := congrArg RoseTree.label hparent
      have hchildren := congrArg RoseTree.children hparent
      rw [label_map] at hlabel
      rw [children_map] at hchildren
      exact ⟨congrArg Element.attrs hlabel, hchildren⟩
    rw [onTag, map, mapForest_eq, hattrs.2, hattrs.1]
  have hcopy : copyTag tag helper = some (nameRoot tag helper) := by
    rw [copyTag, hcur]
    exact if_pos hcurname
  refine ⟨_, hcopy, ⟨rfl, rfl, rfl, rfl⟩, ?_, ?_, ?_⟩
  · show RoseTree.get? (RoseTree.map _ _) _ = _
    rw [nameRoot, hshown, get?_modify, hat.place]
    rfl
  · exact hat.offs.modify fun s hs => .node hs.label fun c hc => hs.child hc
  · intro t
    show (RoseTree.map _ _).modify _ _ = _
    rw [nameRoot, hshown, modify_modify]
    refine modify_congr hat.place ?_
    rw [emit_unnamed hname]
    cases t with
    | node a cs => exact congrArg (RoseTree.node a) (List.append_nil cs).symm

lemma copyTag_opens_child (tag : Opening) (hat : At helper parent)
    (hname : parent.label.name ≠ []) :
    ∃ opened, copyTag tag helper = some opened ∧ Opens helper opened tag := by
  obtain ⟨cur, hcur, hparent⟩ := hat.cur
  have hcurname : ¬ cur.label.name = [] := by
    rw [← hparent, label_map] at hname
    exact hname
  have hoffs := hat.offs.get? hcur
  let child : OutTag := ⟨⟨tag.name, []⟩, helper.xmlOutCurOff⟩
  obtain ⟨hinsert, hlength⟩ := insertTag_last (show cur.All (·.off ≤ child.off) from hoffs)
  have hlast : cur.children.length = parent.children.length := by
    rw [← hparent, children_map, List.length_map]
  have hshown : (helper.xmlOut.modify helper.xmlOutCur (insertTag child)).map
      OutTag.toElement = helper.shown.modify helper.xmlOutCur fun s =>
        .node s.label (s.children ++ [.node ⟨tag.name, []⟩ []]) := by
    refine map_modify hcur ?_
    rw [hinsert, map, mapForest_eq, List.map_append, label_map, children_map]
    rfl
  have hplace : (helper.shown.modify helper.xmlOutCur fun s =>
      .node s.label (s.children ++ [.node ⟨tag.name, []⟩ []])).get?
        (helper.xmlOutCur ++ [parent.children.length]) =
          some (.node ⟨tag.name, []⟩ []) := by
    rw [get?_append, get?_modify, hat.place]
    exact get?_last _ _ _
  have hcopy : copyTag tag helper = some (addChild tag cur helper) := by
    rw [copyTag, hcur]
    exact if_neg hcurname
  refine ⟨_, hcopy, ⟨rfl, rfl, rfl, rfl⟩, ?_, ?_, ?_⟩
  · show RoseTree.get? (RoseTree.map _ _) (_ ++ [_]) = _
    rw [addChild, hshown, hlength, hlast]
    exact hplace
  · have hgrown := hat.offs.mono fun out (h : out.off ≤ helper.xmlOutCurOff) => Nat.le_succ_of_le h
    exact hgrown.modify fun s hs => all_insertTag hs (Nat.le_succ helper.xmlOutCurOff)
  · intro t
    show (RoseTree.map _ _).modify (_ ++ [_]) _ = _
    rw [addChild, hshown, hlength, hlast, modify_append, modify_modify]
    refine modify_congr hat.place ?_
    rw [emit_named hname]
    exact modify_last _ _ _ _

lemma copyTag_opens (tag : Opening) (hat : At helper parent) :
    ∃ opened, copyTag tag helper = some opened ∧ Opens helper opened tag := by
  by_cases hname : parent.label.name = []
  · exact copyTag_opens_root tag hat hname
  · exact copyTag_opens_child tag hat hname

/-- The attributes are set one after the other at the same tag. -/
lemma map_copied (expand : Text → Text) (attrs : List (Text × Text)) (cur : RoseTree OutTag) :
    (attrs.foldl (fun out attr => onTag (fun out => { out with
        attrs := setAttr out.attrs attr.1 (expand attr.2) }) out) cur).map OutTag.toElement =
      .node ⟨cur.label.name,
        attrs.foldl (fun attrs attr => setAttr attrs attr.1 (expand attr.2)) cur.label.attrs⟩
        (cur.children.map (map OutTag.toElement)) := by
  induction attrs generalizing cur with
  | nil =>
    cases cur with
    | node a cs => exact congrArg _ (mapForest_eq _ cs)
  | cons attr attrs ih => exact ih _

lemma all_copied {p : ℕ → Prop} (expand : Text → Text) (attrs : List (Text × Text))
    {cur : RoseTree OutTag} (h : cur.All (p ·.off)) :
    (attrs.foldl (fun out attr => onTag (fun out => { out with
        attrs := setAttr out.attrs attr.1 (expand attr.2) }) out) cur).All (p ·.off) := by
  induction attrs generalizing cur with
  | nil => exact h
  | cons attr attrs ih => exact ih (.node h.label fun c hc => h.child hc)

/-- The tag that was begun has its attributes. -/
lemma copyAttrs_at {opened : Helper Event} {tag : Opening} (h : Opens helper opened tag) :
    At (copyAttrs core tag opened)
      (.node ⟨tag.name, expandedAttrs core tag helper.event⟩ []) ∧
      (copyAttrs core tag opened).shown = opened.shown.modify opened.xmlOutCur fun _ =>
        .node ⟨tag.name, expandedAttrs core tag helper.event⟩ [] := by
  have hplace := h.place
  rw [Helper.shown, get?_map] at hplace
  obtain ⟨cur, hcur, hopen⟩ := Option.map_eq_some_iff.mp hplace
  have hlabel := congrArg RoseTree.label hopen
  have hchildren := congrArg RoseTree.children hopen
  rw [label_map] at hlabel
  rw [children_map] at hchildren
  have hshown : (copyAttrs core tag opened).shown = opened.shown.modify opened.xmlOutCur fun _ =>
      .node ⟨tag.name, expandedAttrs core tag helper.event⟩ [] := by
    rw [Helper.shown, copyAttrs, modify_foldl]
    refine map_modify hcur ?_
    rw [map_copied, hchildren, show cur.label.name = tag.name from congrArg Element.name hlabel,
      show cur.label.attrs = [] from congrArg Element.attrs hlabel, h.same.1]
    rfl
  refine ⟨⟨?_, Or.inl tag.named, ?_⟩, hshown⟩
  · rw [hshown]
    show (opened.shown.modify opened.xmlOutCur _).get? opened.xmlOutCur = _
    rw [get?_modify, h.place]
    rfl
  · rw [copyAttrs, modify_foldl]
    exact h.offs.modify fun s hs => all_copied (p := (· ≤ opened.xmlOutCurOff)) _ _ hs

/-! ## Queries -/

variable {core} {renderChildren : Helper Event → Option (Result Event)} {tag : Tag}

/-- What a function returned: it rendered this, and the cursors are where they were. -/
structure Restores (before after : Helper Event) (outcome : Outcome Event) : Prop extends
    Renders before after outcome where
  inCur : after.xmlInCur = before.xmlInCur
  outCur : after.xmlOutCur = before.xmlOutCur

lemma Restores.counted {n : ℕ} (h : Restores { before with rowcount := n } after outcome) :
    Restores before after outcome :=
  ⟨⟨h.breakTo, h.event, h.count, h.out, h.offs, h.named⟩, h.inCur, h.outCur⟩

variable (core renderChildren tag) in
/-- The children of the tag are rendered as they are alone. -/
def Faithful : Prop :=
  ∀ helper parent, helper.xmlInCur = some tag → helper.nextTemplateName = [] → At helper parent →
    ∃ status after, renderChildren helper = some (status, after) ∧
      Restores helper after (childrenAlone core tag.children helper.event) ∧
      (status = .success ↔ after.nextTemplateName = [])

/-- After a break the rows that are left are skipped. -/
lemma rows_skipped (hbreak : helper.nextTemplateName ≠ []) (rows : List Row) :
    rows.foldlM (queryCallback core renderChildren) helper = some helper := by
  induction rows with
  | nil => rfl
  | cons row rows ih =>
    have hrow : queryCallback core renderChildren helper row = some helper := if_pos hbreak
    rw [List.foldlM_cons, hrow]
    exact ih

/-- A row is counted, whatever its children count. -/
lemma queryCallback_renders (hrender : Faithful core renderChildren tag) (row : Row)
    (hin : helper.xmlInCur = some tag) (hnext : helper.nextTemplateName = [])
    (hat : At helper parent) :
    ∃ after, queryCallback core renderChildren helper row = some after ∧
      Restores helper after
        (childrenAlone core tag.children (addColumns core helper.event row)) ∧
      after.rowcount = helper.rowcount + 1 := by
  let counted := { helper with
    event := addColumns core helper.event row
    rowcount := helper.rowcount + 1 }
  obtain ⟨status, after, hrun, hafter, -⟩ :=
    hrender counted parent hin hnext ⟨hat.place, hat.ready, hat.offs⟩
  have hrow : queryCallback core renderChildren helper row =
      some { after with rowcount := helper.rowcount + 1 } := by
    rw [queryCallback, if_neg (not_not_intro hnext)]
    show (renderChildren counted >>= _) = _
    rw [hrun]
    rfl
  refine ⟨_, hrow, ⟨⟨?_, ?_, ?_, ?_, ?_, ?_⟩, ?_, ?_⟩, rfl⟩
  · exact hafter.breakTo
  · exact hafter.event
  · exact hafter.count
  · exact hafter.out
  · exact hafter.offs
  · exact hafter.named
  · exact hafter.inCur
  · exact hafter.outCur

/-- The rows are rendered one after the other, until one breaks. -/
lemma rows_render (hrender : Faithful core renderChildren tag) (rows : List Row)
    (hin : helper.xmlInCur = some tag) (hnext : helper.nextTemplateName = [])
    (hat : At helper parent) :
    ∃ after, rows.foldlM (queryCallback core renderChildren) helper = some after ∧
      Restores helper after
        (rowsAlone core (childrenAlone core tag.children) rows helper.event) ∧
      helper.rowcount ≤ after.rowcount ∧ (rows ≠ [] → helper.rowcount < after.rowcount) := by
  induction rows generalizing helper parent with
  | nil => exact ⟨helper, rfl, ⟨renders_nothing hat hnext, rfl, rfl⟩, le_rfl, absurd rfl⟩
  | cons row rows ih =>
    obtain ⟨mid, hrow, hmid, hcount⟩ := queryCallback_renders hrender row hin hnext hat
    have hlt : helper.rowcount < mid.rowcount := hcount ▸ Nat.lt_succ_self _
    rw [List.foldlM_cons, hrow, Option.bind_eq_bind, Option.bind_some, rowsAlone]
    by_cases hbreak : (childrenAlone core tag.children
        (addColumns core helper.event row)).breakTo = []
    · have hback := hmid.toRenders.at hat
      have hsame : { mid with xmlOutCur := helper.xmlOutCur } = mid := by
        rw [← hmid.outCur]
      rw [hsame] at hback
      obtain ⟨after, hrest, hafter, hle, -⟩ :=
        ih (hmid.inCur.trans hin) (hmid.breakTo.trans hbreak) hback
      rw [hmid.event] at hafter
      refine ⟨after, hrest, ⟨hmid.toRenders.andThen hbreak hat ?_, hafter.inCur.trans hmid.inCur,
        hafter.outCur.trans hmid.outCur⟩, hlt.le.trans hle, fun _ => hlt.trans_le hle⟩
      rw [hsame]
      exact hafter.toRenders
    · have hstop : mid.nextTemplateName ≠ [] := fun h => hbreak (hmid.breakTo.symm.trans h)
      refine ⟨mid, rows_skipped hstop rows, ?_, hlt.le, fun _ => hlt⟩
      rw [Outcome.andThen, if_pos hbreak]
      exact hmid

lemma doQuery_renders (hrender : Faithful core renderChildren tag)
    (hin : helper.xmlInCur = some tag) (hnext : helper.nextTemplateName = [])
    (hat : At helper parent) :
    ∃ status after, doQuery core renderChildren helper = some (status, after) ∧
      Restores helper after (queryAlone core tag.label (childrenAlone core tag.children)
        helper.event) := by
  let start := { helper with rowcount := 0 }
  have hstart : At start parent := ⟨hat.place, hat.ready, hat.offs⟩
  have hnothing : Restores start start (nothing start.event) :=
    ⟨renders_nothing hstart hnext, rfl, rfl⟩
  cases hexec : core.exec (core.expandHeaders helper.event (tag.label.attrSoft "value".toList)) with
  | none =>
    refine ⟨.failed, start, Option.bind_eq_some_iff.mpr ⟨tag, hin, ?_⟩, ?_⟩
    · dsimp only
      rw [hexec]
      rfl
    · rw [queryAlone, hexec]
      exact hnothing.counted
  | some rows =>
    obtain ⟨after, hrows, hafter, -, hcount⟩ :=
      rows_render hrender rows (show start.xmlInCur = some tag from hin) hnext hstart
    rw [queryAlone, hexec]
    cases rows with
    | nil =>
      cases hrows
      -- no row: the break, or an empty name, which is none
      refine ⟨.success, { start with
        nextTemplateName := tag.label.attrSoft "on-empty-result-break-to".toList },
        Option.bind_eq_some_iff.mpr ⟨tag, hin, ?_⟩, ⟨⟨rfl, rfl, rfl, hnothing.out, hnothing.offs,
          hnothing.named⟩, rfl, rfl⟩⟩
      dsimp only
      rw [hexec]
      by_cases hempty : tag.label.attrSoft "on-empty-result-break-to".toList = []
      · have hsame : start.nextTemplateName = _ := hnext.trans hempty.symm
        refine (if_neg fun h => h.1 hempty).trans ?_
        rw [← hsame]
        rfl
      · exact if_pos ⟨hempty, rfl⟩
    | cons row rows =>
      have hpos : after.rowcount ≠ 0 := (hcount (List.cons_ne_nil _ _)).ne'
      refine ⟨.success, after, Option.bind_eq_some_iff.mpr ⟨tag, hin, ?_⟩,
        hafter.counted⟩
      dsimp only
      rw [hexec]
      show ((row :: rows).foldlM _ start >>= _) = _
      rw [hrows]
      exact if_neg fun h => hpos h.2

/-! ## Commands and tags -/

lemma doSetEventHeader_renders (hrender : Faithful core renderChildren tag)
    (hin : helper.xmlInCur = some tag) (hnext : helper.nextTemplateName = [])
    (hat : At helper parent) :
    ∃ status after, doSetEventHeader core renderChildren helper = some (status, after) ∧
      Restores helper after
        (match eventHeader core tag.label helper.event with
        | .error _ => nothing helper.event
        | .ok event => childrenAlone core tag.children event) := by
  cases hheader : eventHeader core tag.label helper.event with
  | error status =>
    refine ⟨status, helper, Option.bind_eq_some_iff.mpr ⟨tag, hin, ?_⟩,
      ⟨renders_nothing hat hnext, rfl, rfl⟩⟩
    rw [hheader]
    rfl
  | ok event =>
    obtain ⟨status, after, hrun, hafter, -⟩ :=
      hrender { helper with event := event } parent hin hnext ⟨hat.place, hat.ready, hat.offs⟩
    refine ⟨status, after, Option.bind_eq_some_iff.mpr ⟨tag, hin, ?_⟩, ⟨⟨hafter.breakTo,
      hafter.event, hafter.count, hafter.out, hafter.offs, hafter.named⟩, hafter.inCur,
      hafter.outCur⟩⟩
    rw [hheader]
    exact hrun

lemma doCommand_renders (hrender : Faithful core renderChildren tag)
    (hin : helper.xmlInCur = some tag) (hnext : helper.nextTemplateName = [])
    (hat : At helper parent) :
    ∃ status after, doCommand core renderChildren tag.label helper = some (status, after) ∧
      Restores helper after
        (commandAlone core tag.label (childrenAlone core tag.children) helper.event) := by
  have hnothing : Restores helper helper (nothing helper.event) :=
    ⟨renders_nothing hat hnext, rfl, rfl⟩
  have hheader := doSetEventHeader_renders hrender hin hnext hat
  rw [doCommand, commandAlone, ite_or]
  dsimp only
  split_ifs
  · exact ⟨_, _, rfl, hnothing⟩
  · refine ⟨_, _, Option.bind_eq_some_iff.mpr ⟨tag, hin, rfl⟩, ⟨⟨rfl, rfl, rfl, hnothing.out,
      hnothing.offs, hnothing.named⟩, rfl, rfl⟩⟩
  · exact hheader
  · exact hheader
  · exact doQuery_renders hrender hin hnext hat
  · exact ⟨_, _, rfl, hnothing⟩

/-- A tag is rendered as it is alone; `xml_out_cur` may be at a new tag then. -/
lemma renderTag_renders (hrender : Faithful core renderChildren tag)
    (hin : helper.xmlInCur = some tag) (hnext : helper.nextTemplateName = [])
    (hat : At helper parent) :
    ∃ status after, renderTag core renderChildren helper = some (status, after) ∧
      Renders helper after (tagAlone core tag helper.event) ∧
      after.xmlInCur = helper.xmlInCur := by
  cases tag with
  | node opening children =>
    rw [tagAlone]
    by_cases hdo : strcasecmp opening.name "xml-odbc-do".toList = true
    · obtain ⟨status, after, hrun, hafter⟩ := doCommand_renders hrender hin hnext hat
      rw [if_pos hdo]
      refine ⟨status, after, Option.bind_eq_some_iff.mpr ⟨_, hin, ?_⟩, hafter.toRenders,
        hafter.inCur⟩
      exact (if_pos hdo).trans hrun
    · obtain ⟨opened, hcopy, hopens⟩ := copyTag_opens opening hat
      obtain ⟨hplaced, hshown⟩ := copyAttrs_at core hopens
      obtain ⟨hevent, hsame, hopenedIn, hcount⟩ := hopens.same
      obtain ⟨status, after, hrun, hafter, -⟩ := hrender (copyAttrs core opening opened) _
        (hopenedIn.trans hin) (hsame.trans hnext) hplaced
      rw [show (copyAttrs core opening opened).event = helper.event from hevent] at hafter
      rw [if_neg hdo]
      refine ⟨status, after, Option.bind_eq_some_iff.mpr ⟨_, hin, ?_⟩,
        ⟨hafter.breakTo, hafter.event, hafter.count.trans hcount, ?_, hafter.offs, ?_⟩,
        hafter.inCur.trans hopenedIn⟩
      · refine (if_neg hdo).trans (Option.bind_eq_some_iff.mpr ⟨_, hcopy, hrun⟩)
      · rw [hafter.out, hshown]
        show (opened.shown.modify opened.xmlOutCur _).modify opened.xmlOutCur _ = _
        rw [modify_modify, ← hopens.filled]
        congr 1
        funext s
        exact emit_named opening.named
      · intro t ht
        cases List.mem_singleton.mp ht
        exact opening.named

/-! ## Children -/

variable (core) in
/-- The children are rendered one after the other, until one breaks. -/
lemma eachChild_renders (inCur : Option Tag) {outCur : List ℕ} (children : List Tag)
    (hrender : ∀ child ∈ children, Faithful core renderChildren child)
    (hout : helper.xmlOutCur = outCur) (hnext : helper.nextTemplateName = [])
    (hat : At helper parent) :
    ∃ status after, eachChild core renderChildren inCur outCur children helper =
        some (status, after) ∧
      Renders helper after (childrenAlone core children helper.event) ∧
      after.xmlInCur = inCur ∧ after.xmlOutCur = outCur ∧
      (status = .success ↔ after.nextTemplateName = []) := by
  subst hout
  induction children generalizing helper parent with
  | nil =>
    have hnothing := renders_nothing hat hnext
    exact ⟨.success, { helper with xmlInCur := inCur }, rfl, ⟨hnext, rfl, rfl, hnothing.out,
      hnothing.offs, hnothing.named⟩, rfl, rfl, ⟨fun _ => hnext, fun _ => rfl⟩⟩
  | cons child rest ih =>
    let entered := { helper with xmlInCur := some child }
    obtain ⟨status, mid, hrun, hchild, -⟩ := renderTag_renders (hrender child List.mem_cons_self)
      (show entered.xmlInCur = some child from rfl) hnext ⟨hat.place, hat.ready, hat.offs⟩
    have hmid : Renders helper mid (tagAlone core child helper.event) :=
      ⟨hchild.breakTo, hchild.event, hchild.count, hchild.out, hchild.offs, hchild.named⟩
    let back := { mid with xmlOutCur := helper.xmlOutCur }
    rw [childrenAlone]
    by_cases hbreak : (tagAlone core child helper.event).breakTo = []
    · have hgoes : back.nextTemplateName = [] := hmid.breakTo.trans hbreak
      obtain ⟨status', after, hrest, hafter, hrestored⟩ := ih
        (fun child hmem => hrender child (List.mem_cons_of_mem _ hmem)) hgoes (hmid.at hat)
      rw [show back.event = (tagAlone core child helper.event).event from hmid.event] at hafter
      refine ⟨status', after, ?_, hmid.andThen hbreak hat hafter, hrestored⟩
      rw [eachChild, hrun]
      exact (if_neg (not_not_intro hgoes)).trans hrest
    · have hstop : back.nextTemplateName ≠ [] := fun h => hbreak (hmid.breakTo.symm.trans h)
      refine ⟨.failed, { back with xmlInCur := inCur }, ?_, ?_, rfl, rfl,
        ⟨fun h => (nomatch h), fun h => absurd h hstop⟩⟩
      · rw [eachChild, hrun]
        exact if_pos hstop
      · rw [Outcome.andThen, if_pos hbreak]
        exact ⟨hmid.breakTo, hmid.event, hmid.count, hmid.out, hmid.offs, hmid.named⟩

variable (core) in
/-- **The children of a tag are rendered as they are alone**, with a depth of calls as great as the
height of the tag. -/
theorem renderChildrenAt_renders {depth : ℕ} (hdepth : tag.height ≤ depth) :
    Faithful core (renderChildrenAt core depth) tag := by
  induction depth generalizing tag with
  | zero => exact absurd hdepth (Nat.not_le_of_lt tag.height_pos)
  | succ depth ih =>
    intro helper parent hin hnext hat
    obtain ⟨status, after, hrun, hafter, hinCur, houtCur, hstatus⟩ :=
      eachChild_renders core helper.xmlInCur tag.children
        (fun child hmem => ih (Nat.le_of_lt_succ ((height_child hmem).trans_le hdepth)))
        rfl hnext hat
    exact ⟨status, after, Option.bind_eq_some_iff.mpr ⟨tag, hin, hrun⟩,
      ⟨hafter, hinCur, houtCur⟩, hstatus⟩

/-! ## Templates -/

variable (core) in
/-- A template into the new root. -/
lemma template_renders (helper : Helper Event) {template : Tag} {depth : ℕ}
    (hdepth : template.height ≤ depth) (hin : helper.xmlInCur = some template)
    (hnext : helper.nextTemplateName = [])
    (hxml : helper.xmlOut = newXml ∧ helper.xmlOutCur = []) :
    ∃ status after, renderChildrenAt core depth helper = some (status, after) ∧
      after.nextTemplateName = (childrenAlone core template.children helper.event).breakTo ∧
      after.event = (childrenAlone core template.children helper.event).event ∧
      after.renderTemplateCount = helper.renderTemplateCount ∧
      after.shown = asRoot (childrenAlone core template.children helper.event).tags ∧
      (status = .success ↔ after.nextTemplateName = []) := by
  have hat : At helper (.node ⟨[], []⟩ []) := by
    refine ⟨?_, Or.inr rfl, ?_⟩
    · rw [Helper.shown, hxml.1, hxml.2, get?_nil]
      rfl
    · rw [hxml.1]
      exact .node (Nat.zero_le _) fun _ h => nomatch h
  obtain ⟨status, after, hrun, hafter, hstatus⟩ :=
    renderChildrenAt_renders core hdepth helper _ hin hnext hat
  refine ⟨status, after, hrun, hafter.breakTo, hafter.event, hafter.count, ?_, hstatus⟩
  rw [hafter.out, hxml.2, modify_nil, Helper.shown, hxml.1]
  rfl

variable (core) in
/-- How a rendering ends that may still call itself so often. -/
structure Ends (globals : Globals) (budget : ℕ) (helper : Helper Event)
    (rendering : Rendering Event) : Prop where
  bounded : rendering.calls.length ≤ budget + 1
  first : rendering.calls.head? = some (helper.nextTemplateName, helper.event)
  chain : rendering.calls.IsChain (BreaksTo core globals)
  clean : rendering.status = .success → ∃ name event template,
    rendering.calls.getLast? = some (name, event) ∧
    findTemplate globals name = some template ∧
    (childrenAlone core template.children event).breakTo = [] ∧
    rendering.helper.shown = asRoot (childrenAlone core template.children event).tags
  stopped : rendering.status = .failed →
    globals.maxRenderTemplateCount < rendering.helper.renderTemplateCount

variable {globals : Globals} {budget : ℕ}

/-- One call more, which breaks to the others. -/
lemma Ends.cons {helper next : Helper Event} {rendering : Rendering Event}
    (h : Ends core globals budget next rendering)
    (hbreak : BreaksTo core globals (helper.nextTemplateName, helper.event)
      (next.nextTemplateName, next.event)) :
    Ends core globals (budget + 1) helper { rendering with
      calls := (helper.nextTemplateName, helper.event) :: rendering.calls } where
  bounded := Nat.succ_le_succ h.bounded
  first := rfl
  chain := by
    refine List.isChain_cons.mpr ⟨?_, h.chain⟩
    intro call hcall
    rw [h.first] at hcall
    cases hcall
    exact hbreak
  clean := by
    intro hstatus
    obtain ⟨name, event, template, hlast, hclean⟩ := h.clean hstatus
    refine ⟨name, event, template, ?_, hclean⟩
    rw [List.getLast?_cons, hlast, Option.getD_some]
  stopped := h.stopped

lemma height_findTemplate {name : Text} {template : Tag}
    (h : findTemplate globals name = some template) :
    template.height < globals.templatesTag.height :=
  height_child (List.mem_of_find?_eq_some h)

/-- The call that is one too many. -/
lemma renderTemplate_stopped {depth : ℕ}
    (h : globals.maxRenderTemplateCount ≤ helper.renderTemplateCount) :
    renderTemplate core globals (depth + 1) helper =
      some ⟨.failed, { helper with renderTemplateCount := helper.renderTemplateCount + 1 },
        [(helper.nextTemplateName, helper.event)]⟩ :=
  if_pos (Nat.lt_succ_of_le h)

lemma ends_stopped (h : globals.maxRenderTemplateCount ≤ helper.renderTemplateCount) :
    Ends core globals budget helper
    ⟨.failed, { helper with renderTemplateCount := helper.renderTemplateCount + 1 },
      [(helper.nextTemplateName, helper.event)]⟩ where
  bounded := Nat.succ_le_succ (Nat.zero_le budget)
  first := rfl
  chain := .singleton _
  clean := fun h => nomatch h
  stopped := fun _ => Nat.lt_succ_of_le h

variable (core) in
/-- Every call leaves one call less. -/
lemma renderTemplate_ends (helper : Helper Event) {depth : ℕ}
    (hdepth : globals.templatesTag.height + budget < depth)
    (hbudget : globals.maxRenderTemplateCount ≤ helper.renderTemplateCount + budget) :
    ∃ rendering, renderTemplate core globals depth helper = some rendering ∧
      Ends core globals budget helper rendering := by
  induction budget generalizing depth helper with
  | zero =>
    cases depth with
    | zero => exact absurd hdepth (Nat.not_lt_zero _)
    | succ depth => exact ⟨_, renderTemplate_stopped hbudget, ends_stopped hbudget⟩
  | succ budget ih =>
    cases depth with
    | zero => exact absurd hdepth (Nat.not_lt_zero _)
    | succ depth =>
      have hless : globals.templatesTag.height + budget < depth := Nat.lt_of_succ_lt_succ hdepth
      by_cases hstop : globals.maxRenderTemplateCount ≤ helper.renderTemplateCount
      · exact ⟨_, renderTemplate_stopped hstop, ends_stopped hstop⟩
      have hleft : globals.maxRenderTemplateCount ≤ helper.renderTemplateCount + 1 + budget := by
        omega
      let placed (inCur : Option Tag) (name : Text) : Helper Event := { helper with
        nextTemplateName := name
        renderTemplateCount := helper.renderTemplateCount + 1
        xmlOut := newXml
        xmlOutCur := []
        xmlOutCurOff := 0
        xmlInCur := inCur }
      have hgo : ¬ globals.maxRenderTemplateCount < helper.renderTemplateCount + 1 :=
        fun h => hstop (Nat.le_of_lt_succ h)
      cases hfind : findTemplate globals helper.nextTemplateName with
      | none =>
        obtain ⟨rest, hrest, hends⟩ := ih (placed none "not-found".toList) hless hleft
        refine ⟨_, ?_, hends.cons (by rw [BreaksTo, hfind])⟩
        rw [renderTemplate, if_neg hgo]
        dsimp only
        rw [hfind]
        show (renderTemplate core globals depth (placed none "not-found".toList) >>= _) = _
        rw [hrest]
        rfl
      | some template =>
        have hheight : template.height ≤ depth :=
          ((height_findTemplate hfind).trans_le (Nat.le_add_right _ _)).le.trans hless.le
        obtain ⟨status, after, hrun, hnext, hevent, hcount, hshown, hstatus⟩ :=
          template_renders core (placed (some template) []) hheight rfl rfl ⟨rfl, rfl⟩
        have hcall : renderTemplate core globals (depth + 1) helper =
            if after.nextTemplateName ≠ [] then do
              let rest ← renderTemplate core globals depth after
              return { rest with calls := (helper.nextTemplateName, helper.event) :: rest.calls }
            else return ⟨status, after, [(helper.nextTemplateName, helper.event)]⟩ := by
          rw [renderTemplate, if_neg hgo]
          dsimp only
          rw [hfind]
          show (renderChildrenAt core depth (placed (some template) []) >>= _) = _
          rw [hrun]
          rfl
        by_cases hbreak : after.nextTemplateName = []
        · refine ⟨_, hcall.trans (if_neg (not_not_intro hbreak)), Nat.succ_le_succ (Nat.zero_le _),
            rfl, .singleton _, fun _ => ?_, fun hfailed => ?_⟩
          · exact ⟨_, _, template, rfl, hfind, hnext.symm.trans hbreak, hshown⟩
          · exact nomatch hfailed.symm.trans (hstatus.mpr hbreak)
        · obtain ⟨rest, hrest, hends⟩ := ih after hless (hcount ▸ hleft)
          refine ⟨_, ?_, hends.cons ?_⟩
          · rw [hcall, if_pos hbreak, hrest]
            rfl
          · rw [BreaksTo, hfind]
            exact ⟨fun h => hbreak (hnext.trans h), Prod.ext hnext hevent⟩

/-- A rendering fails only when it has called itself too often. -/
theorem failed_only_when_stopped {rendering : Rendering Event} {depth : ℕ}
    (hdepth : globals.templatesTag.height + globals.maxRenderTemplateCount < depth)
    (hrun : renderTemplate core globals depth helper = some rendering)
    (hfailed : rendering.status = .failed) :
    globals.maxRenderTemplateCount < rendering.helper.renderTemplateCount := by
  obtain ⟨_, hsame, hends⟩ :=
    renderTemplate_ends core helper hdepth (Nat.le_add_left _ _)
  cases hrun.symm.trans hsame
  exact hends.stopped hfailed

variable (core) in
/-- **Template rendering ends and starts clean after a break**: with a depth of calls that is great
enough it returns after at most one call more than are allowed, the calls break from one template to
the next, and the tree that it succeeds with is that of the last template alone, from the event as it
was when that template started. -/
theorem render_template_starts_clean (globals : Globals) (helper : Helper Event) :
    ∃ bound, ∀ depth, bound ≤ depth → ∃ rendering,
      renderTemplate core globals depth helper = some rendering ∧
      rendering.calls.length ≤ globals.maxRenderTemplateCount + 1 ∧
      rendering.calls.head? = some (helper.nextTemplateName, helper.event) ∧
      rendering.calls.IsChain (BreaksTo core globals) ∧
      (rendering.status = .success → ∃ name event template,
        rendering.calls.getLast? = some (name, event) ∧
        findTemplate globals name = some template ∧
        (childrenAlone core template.children event).breakTo = [] ∧
        rendering.helper.shown = asRoot (childrenAlone core template.children event).tags) := by
  refine ⟨globals.templatesTag.height + globals.maxRenderTemplateCount + 1, fun depth hdepth => ?_⟩
  obtain ⟨rendering, hrun, hends⟩ := renderTemplate_ends core helper
    (Nat.lt_of_succ_le hdepth) (Nat.le_add_left _ _)
  exact ⟨rendering, hrun, hends.bounded, hends.first, hends.chain, hends.clean⟩

end FreeswitchContrib.XmlOdbc

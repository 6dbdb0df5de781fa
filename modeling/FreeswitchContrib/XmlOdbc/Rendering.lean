import FreeswitchContrib.Library.CString
import FreeswitchContrib.Library.RoseTree

/-!
# How `mod_xml_odbc` renders a template

One `Helper` is handed through all functions: they read the template at `xml_in_cur` and add to the
tree at `xml_out_cur`, set `next_template_name` to break to another template, and are called back by
the database for every row.

The functions that call each other have the `depth` of the calls that is still allowed; at depth 0,
and where a pointer leads nowhere, they are `none`.  The events and the database belong to the core
and come as `Core`.
-/

namespace FreeswitchContrib.XmlOdbc

open CString

abbrev Text := List Char

/-! ## Tags -/

/-- A tag of a template, without its children. -/
structure Opening where
  name : Text
  attrs : List (Text × Text)
  /-- the parser gives no tag without a name -/
  named : name ≠ []

abbrev Tag := RoseTree Opening

/-- A rendered tag, without its children. -/
structure Element where
  name : Text
  attrs : List (Text × Text)
  deriving DecidableEq

/-- A tag of `xml_out`. -/
structure OutTag extends Element where
  /-- where it is among the children of its parent -/
  off : ℕ

/-- `switch_xml_attr` -/
def Opening.attr (tag : Opening) (name : Text) : Option Text := tag.attrs.lookup name

/-- `switch_xml_attr_soft` -/
def Opening.attrSoft (tag : Opening) (name : Text) : Text := (tag.attr name).getD []

/-- `switch_xml_find_child`: the first such child with this value of the attribute. -/
def findChild (tag : Tag) (childname attrname value : Text) : Option Tag :=
  tag.children.find? fun child =>
    child.label.name == childname && (child.label.attr attrname).any (strcasecmp · value)

/-- `switch_xml_set_attr` -/
def setAttr (attrs : List (Text × Text)) (name value : Text) : List (Text × Text) :=
  match attrs with
  | [] => [(name, value)]
  | a :: attrs => if a.1 = name then (name, value) :: attrs else a :: setAttr attrs name value

section

variable {attrs : List (Text × Text)} {name value n v : Text}

lemma mem_setAttr (honce : (attrs.map Prod.fst).Nodup) :
    (n, v) ∈ setAttr attrs name value ↔
      if n = name then v = value else (n, v) ∈ attrs := by
  induction attrs with
  | nil =>
    rw [setAttr, List.mem_singleton, Prod.mk.injEq]
    split_ifs with hname
    · exact and_iff_right hname
    · exact iff_of_false (fun h => hname h.1) List.not_mem_nil
  | cons attr attrs ih =>
    obtain ⟨hfresh, honce⟩ := List.nodup_cons.mp honce
    rw [setAttr]
    by_cases hattr : attr.1 = name
    · rw [if_pos hattr, List.mem_cons, Prod.mk.injEq]
      split_ifs with hname
      · refine ⟨fun h => ?_, fun h => Or.inl ⟨hname, h⟩⟩
        rcases h with h | h
        · exact h.2
        · rw [hname, ← hattr] at h
          exact absurd (List.mem_map_of_mem (f := Prod.fst) h) hfresh
      · rw [List.mem_cons]
        refine or_congr_left (iff_of_false (fun h => hname h.1) ?_)
        rintro rfl
        exact hname hattr
    · rw [if_neg hattr, List.mem_cons, ih honce]
      split_ifs with hname
      · refine or_iff_right ?_
        rintro rfl
        exact hattr hname
      · rw [List.mem_cons]

/-- The names stay in their places, or there is one more at the end. -/
lemma nodup_setAttr (honce : (attrs.map Prod.fst).Nodup) :
    ((setAttr attrs name value).map Prod.fst).Nodup := by
  induction attrs with
  | nil => exact List.pairwise_singleton _ _
  | cons attr attrs ih =>
    obtain ⟨hfresh, honce'⟩ := List.nodup_cons.mp honce
    rw [setAttr]
    by_cases hattr : attr.1 = name
    · rw [if_pos hattr, List.map_cons, ← hattr]
      exact honce
    · rw [if_neg hattr, List.map_cons]
      refine List.nodup_cons.mpr ⟨fun hmem => hfresh ?_, ih honce'⟩
      obtain ⟨⟨n, v⟩, hmem, hn⟩ := List.mem_map.mp hmem
      have hother : ¬ n = name := fun hname => hattr (hn.symm.trans hname)
      rw [mem_setAttr honce', if_neg hother] at hmem
      exact List.mem_map.mpr ⟨_, hmem, hn⟩

end

/-- `switch_xml_new("")` -/
def newXml : RoseTree OutTag := .node ⟨⟨[], []⟩, 0⟩ []

/-- `switch_xml_insert`: behind the children with no greater offset. -/
def insertTag (tag : OutTag) (parent : RoseTree OutTag) : RoseTree OutTag :=
  .node parent.label (parent.children.takeWhile (·.label.off ≤ tag.off) ++
    .node tag [] :: parent.children.dropWhile (·.label.off ≤ tag.off))

/-- What is done to a tag itself. -/
def onTag (f : OutTag → OutTag) (tag : RoseTree OutTag) : RoseTree OutTag :=
  .node (f tag.label) tag.children

/-! ## The session helper -/

/-- A row of a result: the names of the columns and the values. -/
abbrev Row := List (Text × Option Text)

/-- What the core does with events, and what the database says. -/
structure Core (Event : Type) where
  /-- `switch_event_get_header` -/
  getHeader : Event → Text → Option Text
  /-- `switch_event_del_header` -/
  delHeader : Event → Text → Event
  /-- `switch_event_add_header_string` -/
  addHeader : Event → Text → Option Text → Event
  /-- `switch_event_expand_headers` -/
  expandHeaders : Event → Text → Text
  /-- what is read where the value of a header was, after the header has been deleted -/
  freedValue : Event → Text → Text
  /-- `switch_odbc_handle_callback_exec`: the rows for which the callback is called -/
  exec : Text → Option (List Row)

structure Globals where
  templatesTag : Tag
  maxRenderTemplateCount : ℕ

inductive Status where
  | success
  /-- `SWITCH_STATUS_FALSE` -/
  | failed
  deriving DecidableEq

/-- `xml_odbc_session_helper_t` -/
structure Helper (Event : Type) where
  nextTemplateName : Text
  event : Event
  xmlInCur : Option Tag
  xmlOut : RoseTree OutTag
  /-- a path in `xml_out` -/
  xmlOutCur : List ℕ
  xmlOutCurOff : ℕ
  renderTemplateCount : ℕ
  rowcount : ℕ

variable {Event : Type}

/-- What a function of the helper returns, and the helper then. -/
abbrev Result (Event : Type) := Status × Helper Event

variable (core : Core Event) (renderChildren : Helper Event → Option (Result Event))

/-! ## Commands -/

/-- The columns of a row become headers of the event. -/
def addColumns (event : Event) (row : Row) : Event :=
  row.foldl (fun event column =>
    core.addHeader (core.delHeader event column.1) column.1 column.2) event

/-- `xml_odbc_query_callback` -/
def queryCallback (helper : Helper Event) (row : Row) : Option (Helper Event) :=
  if helper.nextTemplateName ≠ [] then some helper
  else do
    let helper := { helper with
      event := addColumns core helper.event row
      rowcount := helper.rowcount + 1 }
    let (_, after) ← renderChildren helper
    return { after with rowcount := helper.rowcount }

/-- `xml_odbc_do_break_to` -/
def doBreakTo (helper : Helper Event) : Option (Result Event) := do
  let tag ← helper.xmlInCur
  let value := tag.label.attrSoft "value".toList
  return (.success, { helper with nextTemplateName := core.expandHeaders helper.event value })

/-- `xml_odbc_do_set_event_header` before it renders the children: the event then, or the status
where it does not come to that. -/
def eventHeader (tag : Opening) (event : Event) : Except Status Event :=
  let expanded name := (tag.attr name).map (core.expandHeaders event)
  let ifName := expanded "if-name".toList
  let ifValue := expanded "if-value".toList
  let toName := expanded "to-name".toList
  let toValue := expanded "to-value".toList
  let oldValue := ifName.bind (core.getHeader event)
  if ifValue.isSome ∧ ifName.isNone then .error .failed
  else match ifName <|> toName with
    | none => .error .failed
    | some name =>
      if ifName.isSome ∧ oldValue.isNone then .error .success
      else if ∃ v ∈ ifValue, ∃ old ∈ oldValue, ¬ strcasecmp v old then .error .success
      else if toName.isSome ∨ toValue.isSome then
        -- `old_value` points into the header that is deleted here
        let stale := oldValue.map fun _ => core.freedValue event name
        .ok (core.addHeader (core.delHeader event name) (toName.getD name) (toValue <|> stale))
      else .ok event

/-- `xml_odbc_do_set_event_header` -/
def doSetEventHeader (helper : Helper Event) : Option (Result Event) := do
  let tag ← helper.xmlInCur
  match eventHeader core tag.label helper.event with
  | .error status => return (status, helper)
  | .ok event => renderChildren { helper with event := event }

/-- `xml_odbc_do_query` -/
def doQuery (helper : Helper Event) : Option (Result Event) := do
  let tag ← helper.xmlInCur
  let value := tag.label.attrSoft "value".toList
  let emptyResultBreakTo := tag.label.attrSoft "on-empty-result-break-to".toList
  let newValue := core.expandHeaders helper.event value
  let helper := { helper with rowcount := 0 }
  match core.exec newValue with
  | none => return (.failed, helper)
  | some rows =>
    let helper ← rows.foldlM (queryCallback core renderChildren) helper
    if emptyResultBreakTo ≠ [] ∧ helper.rowcount = 0 then
      return (.success, { helper with nextTemplateName := emptyResultBreakTo })
    else return (.success, helper)

/-! ## Tags and templates -/

/-- The root gets its name. -/
def nameRoot (tag : Opening) (helper : Helper Event) : Helper Event :=
  { helper with
    xmlOut := helper.xmlOut.modify helper.xmlOutCur
      (onTag fun out => { out with name := tag.name }) }

/-- `switch_xml_add_child_d`, after which `xml_out_cur` is at the new child. -/
def addChild (tag : Opening) (cur : RoseTree OutTag) (helper : Helper Event) : Helper Event :=
  let off := helper.xmlOutCurOff
  { helper with
    xmlOut := helper.xmlOut.modify helper.xmlOutCur (insertTag ⟨⟨tag.name, []⟩, off⟩)
    xmlOutCur := helper.xmlOutCur ++ [(cur.children.takeWhile (·.label.off ≤ off)).length]
    xmlOutCurOff := off + 1 }

/-- `xml_in_cur` is copied to `xml_out`: the first tag becomes the root. -/
def copyTag (tag : Opening) (helper : Helper Event) : Option (Helper Event) := do
  let cur ← helper.xmlOut.get? helper.xmlOutCur
  if cur.label.name = [] then return nameRoot tag helper
  else return addChild tag cur helper

/-- All expanded attributes of `xml_in_cur` are copied. -/
def copyAttrs (tag : Opening) (helper : Helper Event) : Helper Event :=
  { helper with
    xmlOut := tag.attrs.foldl (fun xmlOut attr =>
      xmlOut.modify helper.xmlOutCur (onTag fun out => { out with
        attrs := setAttr out.attrs attr.1 (core.expandHeaders helper.event attr.2) }))
      helper.xmlOut }

/-- `xml_odbc_render_tag` for an `xml-odbc-do` -/
def doCommand (tag : Opening) (helper : Helper Event) : Option (Result Event) :=
  let name := tag.attrSoft "name".toList
  if name = [] then some (.failed, helper)
  else if strcasecmp name "break-to".toList then doBreakTo core helper
  else if strcasecmp name "check-event-header".toList then
    doSetEventHeader core renderChildren helper
  else if strcasecmp name "set-event-header".toList then
    doSetEventHeader core renderChildren helper
  else if strcasecmp name "query".toList then doQuery core renderChildren helper
  else some (.failed, helper)

/-- `xml_odbc_render_tag` -/
def renderTag (helper : Helper Event) : Option (Result Event) := do
  let tag ← helper.xmlInCur
  if strcasecmp tag.label.name "xml-odbc-do".toList then
    doCommand core renderChildren tag.label helper
  else
    let helper ← copyTag tag.label helper
    renderChildren (copyAttrs core tag.label helper)

/-- The loop of `xml_odbc_render_children` over the children that are left. -/
def eachChild (inCur : Option Tag) (outCur : List ℕ) : List Tag → Helper Event → Option (Result Event)
  | [], helper => some (.success, { helper with xmlInCur := inCur })
  | child :: rest, helper => do
    let (_, helper) ← renderTag core renderChildren { helper with xmlInCur := some child }
    let helper := { helper with xmlOutCur := outCur }
    if helper.nextTemplateName ≠ [] then return (.failed, { helper with xmlInCur := inCur })
    else eachChild inCur outCur rest helper

/-- `xml_odbc_render_children` -/
def renderChildrenAt : ℕ → Helper Event → Option (Result Event)
  | 0, _ => none
  | depth + 1, helper => do
    let tag ← helper.xmlInCur
    eachChild core (renderChildrenAt depth) helper.xmlInCur helper.xmlOutCur tag.children helper

/-- The template of this name. -/
def findTemplate (globals : Globals) (name : Text) : Option Tag :=
  findChild globals.templatesTag "template".toList "name".toList name

/-- What `xml_odbc_render_template` returns, the helper then, and with which template name and event
it has been called, the first call first. -/
structure Rendering (Event : Type) where
  status : Status
  helper : Helper Event
  calls : List (Text × Event)

/-- `xml_odbc_render_template` -/
def renderTemplate (globals : Globals) : ℕ → Helper Event → Option (Rendering Event)
  | 0, _ => none
  | depth + 1, called =>
    let call := (called.nextTemplateName, called.event)
    let helper := { called with renderTemplateCount := called.renderTemplateCount + 1 }
    if globals.maxRenderTemplateCount < helper.renderTemplateCount then
      some ⟨.failed, helper, [call]⟩
    else
      let helper := { helper with
        xmlOut := newXml
        xmlOutCur := []
        xmlOutCurOff := 0
        xmlInCur := findTemplate globals helper.nextTemplateName }
      match helper.xmlInCur with
      | some _ => do
        let (status, helper) ← renderChildrenAt core depth { helper with nextTemplateName := [] }
        if helper.nextTemplateName ≠ [] then
          let rest ← renderTemplate globals depth helper
          return { rest with calls := call :: rest.calls }
        else return ⟨status, helper, [call]⟩
      | none => do
        let rest ← renderTemplate globals depth { helper with
          nextTemplateName := "not-found".toList }
        return { rest with calls := call :: rest.calls }

end FreeswitchContrib.XmlOdbc

import FreeswitchContrib.Library.Freeing
import FreeswitchContrib.XmlOdbc.CleanStart

/-!
# The trees of a search

`xml_odbc_search` renders templates into a tree of its helper, which is freed before every template
and at the end; what it returns is parsed from the file that the tree was written to.  The helper is
on the stack, and `xml_out` is not set before the first template.

* `renderTrees`, `search` — the templates and the search, with what they create and free.
* `renderTrees_frees` — a template frees the tree of the one before it.
* **`search_frees_once_iff`** — a search frees what it creates once, and nothing else, when there is
  no binding or what is on the stack is null.
-/

namespace FreeswitchContrib.XmlOdbc

open Freeing

variable {Event : Type}

/-! ## Templates -/

inductive Tree
  /-- what `xml_out` is before it is set -/
  | stack
  /-- the tree of the n-th template -/
  | rendered (n : ℕ)
  /-- the tree that is read from the file -/
  | parsed
  deriving DecidableEq

/-- What the functions return that are called: those of the children, of the core and of the
system. -/
structure Outcomes (Event : Type) where
  /-- `xml_odbc_render_children`, with the queries and the allocations that it makes -/
  renderChildren : Helper Event → Result Event
  /-- whether `switch_xml_new` has memory for the n-th template -/
  newXml : ℕ → Bool
  /-- `open` -/
  fd : ℤ
  /-- `write` -/
  written : ℤ
  /-- whether `switch_xml_parse_file` returns a tree -/
  parses : Bool

/-- What the templates leave. -/
structure Rendered (Event : Type) where
  status : Status
  helper : Helper Event
  xmlOut : Option Tree
  operations : List (Freeing.Operation Tree)

/-- These operations come first. -/
def Rendered.after (operations : List (Freeing.Operation Tree)) (rest : Rendered Event) :
    Rendered Event :=
  { rest with operations := operations ++ rest.operations }

/-- `xml_odbc_render_template`, with `xml_out` and what becomes of the trees. -/
def renderTrees (globals : Globals) (outcomes : Outcomes Event) (called : Helper Event)
    (xmlOut : Option Tree) : Rendered Event :=
  let count := called.renderTemplateCount + 1
  if h : globals.maxRenderTemplateCount < count then
    ⟨.failed, { called with renderTemplateCount := count }, xmlOut, []⟩
  else if outcomes.newXml count then
    let tree := Tree.rendered count
    let helper := { called with
      renderTemplateCount := count
      xmlOut := newXml
      xmlOutCur := []
      xmlOutCurOff := 0
      xmlInCur := findTemplate globals called.nextTemplateName }
    match helper.xmlInCur with
    | some _ =>
      let (status, after) := outcomes.renderChildren { helper with nextTemplateName := [] }
      -- no function of the children writes the counter
      let after := { after with renderTemplateCount := count }
      if after.nextTemplateName ≠ [] then
        (renderTrees globals outcomes after (some tree)).after [.free xmlOut, .new tree]
      else ⟨status, after, some tree, [.free xmlOut, .new tree]⟩
    | none =>
      (renderTrees globals outcomes { helper with nextTemplateName := "not-found".toList }
        (some tree)).after [.free xmlOut, .new tree]
  else
    ⟨.failed, { called with renderTemplateCount := count, nextTemplateName := [] }, none,
      [.free xmlOut]⟩
termination_by globals.maxRenderTemplateCount - called.renderTemplateCount

/-! ## The search -/

/-- What the core asks for. -/
structure Search (Event : Type) where
  /-- `xml_binding_t` -/
  binding : Option Text
  sectionName : Option Text
  tagName : Option Text
  keyName : Option Text
  keyValue : Option Text
  event : Option Event

structure Searched where
  xmlOut : Option Tree
  operations : List (Freeing.Operation Tree)

/-- The event of the search; one that is made by `switch_event_create` is asserted to be there. -/
def Search.params (core : Core Event) (search : Search Event) (created : Event) : Event :=
  [("section".toList, search.sectionName), ("tag_name".toList, search.tagName),
    ("key_name".toList, search.keyName), ("key_value".toList, search.keyValue)].foldl
      (fun event header => core.addHeader event header.1 (some (header.2.getD [])))
      (search.event.getD created)

/-- The helper of a search; all that is not set here but `xml_out` is set before it is read. -/
def Search.helper (core : Core Event) (search : Search Event) (created : Event) : Helper Event where
  nextTemplateName := "default".toList
  event := search.params core created
  xmlInCur := none
  xmlOut := newXml
  xmlOutCur := []
  xmlOutCurOff := 0
  renderTemplateCount := 0
  rowcount := 0

/-- `xml_odbc_search`, with what is on the stack where the helper is. -/
def Search.run (core : Core Event) (globals : Globals) (outcomes : Outcomes Event)
    (stack : Option Tree) (created : Event) (search : Search Event) : Searched :=
  match search.binding with
  | none => ⟨none, []⟩
  | some _ =>
    let rendered := renderTrees globals outcomes (search.helper core created) stack
    if rendered.status ≠ .success then
      ⟨none, rendered.operations ++ [.free rendered.xmlOut]⟩
    else if outcomes.fd < 0 then ⟨none, rendered.operations ++ [.free rendered.xmlOut]⟩
    else if outcomes.written = 0 then ⟨none, rendered.operations ++ [.free rendered.xmlOut]⟩
    else if outcomes.parses then
      ⟨some .parsed, rendered.operations ++ [.new .parsed] ++ [.free rendered.xmlOut]⟩
    else ⟨none, rendered.operations ++ [.free rendered.xmlOut]⟩

/-! ## The templates free their trees -/

variable {core : Core Event} {globals : Globals} {outcomes : Outcomes Event}
  {helper : Helper Event} {xmlOut : Option Tree} {before : List (Freeing.Operation Tree)}

/-- After the templates so far `xml_out` is what is there, and the trees have the numbers of their
templates. -/
structure Holding (n : ℕ) (xmlOut : Option Tree) (operations : List (Freeing.Operation Tree)) :
    Prop where
  frees : FreesOnce xmlOut.toFinset operations
  numbered : ∀ tree, .new tree ∈ operations → ∃ m ≤ n, tree = .rendered m

lemma Holding.free {n : ℕ} (h : Holding n xmlOut before) :
    Holding n none (before ++ [.free xmlOut]) := by
  refine ⟨?_, fun tree htree => ?_⟩
  · refine FreesOnce.freePointer ?_ fun a _ => Finset.notMem_empty a
    rw [Option.toFinset_none, Finset.union_empty]
    exact h.frees
  · rcases List.mem_append.1 htree with htree | htree
    · exact h.numbered tree htree
    · cases List.mem_singleton.1 htree

/-- The tree of the next template. -/
lemma Holding.next {n : ℕ} (h : Holding n xmlOut before) :
    Holding (n + 1) (some (.rendered (n + 1)))
      (before ++ [.free xmlOut, .new (.rendered (n + 1))]) := by
  have hfree := h.free
  have hnew : .new (.rendered (n + 1)) ∉ before ++ [.free xmlOut] := by
    intro hmem
    obtain ⟨m, hm, hsame⟩ := hfree.numbered _ hmem
    cases hsame
    exact absurd hm (Nat.not_succ_le_self n)
  have happend : before ++ [.free xmlOut, .new (.rendered (n + 1))] =
      before ++ [.free xmlOut] ++ [.new (Tree.rendered (n + 1))] := by
    rw [List.append_assoc, List.singleton_append]
  rw [happend]
  refine ⟨hfree.frees.new hnew, fun tree htree => ?_⟩
  rcases List.mem_append.1 htree with htree | htree
  · obtain ⟨m, hm, rfl⟩ := hfree.numbered tree htree
    exact ⟨m, Nat.le_succ_of_le hm, rfl⟩
  · cases List.mem_singleton.1 htree
    exact ⟨n + 1, Nat.le_refl _, rfl⟩

lemma Holding.mono {n : ℕ} (h : Holding n xmlOut before) : Holding (n + 1) xmlOut before :=
  ⟨h.frees, fun tree htree => by
    obtain ⟨m, hm, rfl⟩ := h.numbered tree htree
    exact ⟨m, Nat.le_succ_of_le hm, rfl⟩⟩

/-- More templates after the operations of one. -/
lemma Holding.after {n : ℕ} {operations : List (Freeing.Operation Tree)} {rest : Rendered Event}
    (h : Holding n xmlOut (before ++ operations ++ rest.operations)) :
    Holding n xmlOut (before ++ (rest.after operations).operations) := by
  rw [List.append_assoc] at h
  exact h

variable (globals outcomes) in
/-- **A template** frees the tree of the one before it. -/
lemma renderTrees_frees (h : Holding helper.renderTemplateCount xmlOut before) :
    Holding (renderTrees globals outcomes helper xmlOut).helper.renderTemplateCount
      (renderTrees globals outcomes helper xmlOut).xmlOut
      (before ++ (renderTrees globals outcomes helper xmlOut).operations) := by
  fun_induction renderTrees globals outcomes helper xmlOut generalizing before with
  | case1 =>
    rw [List.append_nil]
    exact h.mono
  | case2 =>
    rename_i ih
    exact (ih h.next).after
  | case3 => exact h.next
  | case4 =>
    rename_i ih
    exact (ih h.next).after
  | case5 => exact h.free.mono

variable (globals outcomes helper xmlOut) in
/-- The first thing that is done is to free what `xml_out` was, unless too many templates have been
rendered. -/
lemma renderTrees_first :
    let rendered := renderTrees globals outcomes helper xmlOut
    (rendered.status = .failed ∧ rendered.xmlOut = xmlOut ∧ rendered.operations = []) ∨
      ∃ rest, rendered.operations = .free xmlOut :: rest := by
  intro rendered
  subst rendered
  fun_cases renderTrees globals outcomes helper xmlOut with
  | case1 => exact .inl ⟨rfl, rfl, rfl⟩
  | case2 => exact .inr ⟨_, rfl⟩
  | case3 => exact .inr ⟨_, rfl⟩
  | case4 => exact .inr ⟨_, rfl⟩
  | case5 => exact .inr ⟨_, rfl⟩

/-! ## The templates are those of the model -/

/-- The functions of the model, where there is memory for every tree. -/
def modelled (core : Core Event) (bound : ℕ) (fd written : ℤ) (parses : Bool) : Outcomes Event where
  renderChildren helper :=
    (renderChildrenAt core (bound - helper.renderTemplateCount) helper).getD (.failed, helper)
  newXml _ := true
  fd := fd
  written := written
  parses := parses

/-- The helper that the children of a template are rendered with. -/
def Helper.placed (helper : Helper Event) (template : Tag) : Helper Event :=
  { helper with
    nextTemplateName := []
    renderTemplateCount := helper.renderTemplateCount + 1
    xmlOut := newXml
    xmlOutCur := []
    xmlOutCurOff := 0
    xmlInCur := some template }

/-- A template that there is. -/
lemma renderTrees_template {template : Tag} {status : Status} {after : Helper Event}
    (hgo : ¬ globals.maxRenderTemplateCount < helper.renderTemplateCount + 1)
    (hnew : outcomes.newXml (helper.renderTemplateCount + 1) = true)
    (hfind : findTemplate globals helper.nextTemplateName = some template)
    (hchildren : outcomes.renderChildren (helper.placed template) = (status, after))
    (hcount : after.renderTemplateCount = helper.renderTemplateCount + 1) :
    renderTrees globals outcomes helper xmlOut =
      let tree := Tree.rendered (helper.renderTemplateCount + 1)
      if after.nextTemplateName ≠ [] then
        (renderTrees globals outcomes after (some tree)).after [.free xmlOut, .new tree]
      else ⟨status, after, some tree, [.free xmlOut, .new tree]⟩ := by
  have hafter : { after with renderTemplateCount := helper.renderTemplateCount + 1 } = after := by
    rw [← hcount]
  rw [Helper.placed] at hchildren
  rw [renderTrees, dif_neg hgo, if_pos hnew]
  simp only [hfind, hchildren, hafter]

/-- The templates end with the status and the helper that the model ends with. -/
theorem renderTrees_eq_renderTemplate (xmlOut : Option Tree) {budget depth : ℕ}
    {fd written : ℤ} {parses : Bool}
    (hdepth : globals.templatesTag.height + budget < depth)
    (hbudget : globals.maxRenderTemplateCount ≤ helper.renderTemplateCount + budget)
    {rendering : Rendering Event}
    (hrun : renderTemplate core globals depth helper = some rendering) :
    let outcomes := modelled core (depth + helper.renderTemplateCount) fd written parses
    (renderTrees globals outcomes helper xmlOut).status = rendering.status ∧
      (renderTrees globals outcomes helper xmlOut).helper = rendering.helper := by
  intro outcomes
  induction depth generalizing budget helper xmlOut rendering with
  | zero => exact absurd hdepth (Nat.not_lt_zero _)
  | succ depth ih =>
    by_cases hstop : globals.maxRenderTemplateCount ≤ helper.renderTemplateCount
    · rw [renderTemplate_stopped hstop] at hrun
      cases hrun
      rw [renderTrees, dif_pos (Nat.lt_succ_of_le hstop)]
      exact ⟨rfl, rfl⟩
    have hgo : ¬ globals.maxRenderTemplateCount < helper.renderTemplateCount + 1 :=
      fun h => hstop (Nat.le_of_lt_succ h)
    have hnext : depth + 1 + helper.renderTemplateCount =
        depth + (helper.renderTemplateCount + 1) := by
      omega
    obtain ⟨left, rfl⟩ : ∃ left, budget = left + 1 := Nat.exists_eq_succ_of_ne_zero (by omega)
    have hless : globals.templatesTag.height + left < depth := Nat.lt_of_succ_lt_succ hdepth
    rw [renderTemplate, if_neg hgo] at hrun
    dsimp only at hrun
    cases hfind : findTemplate globals helper.nextTemplateName with
    | none =>
      rw [hfind] at hrun
      obtain ⟨rest, hrest, hrendering⟩ := Option.bind_eq_some_iff.1 hrun
      cases hrendering
      have hrendered := ih (some (.rendered (helper.renderTemplateCount + 1))) hless
        (by dsimp only; omega) hrest
      dsimp only at hrendered
      rw [← hnext] at hrendered
      rw [renderTrees, dif_neg hgo]
      dsimp only
      rw [if_pos (show outcomes.newXml (helper.renderTemplateCount + 1) = true from rfl), hfind]
      exact hrendered
    | some template =>
      rw [hfind] at hrun
      have hheight : template.height ≤ depth :=
        ((height_findTemplate hfind).trans_le (Nat.le_add_right _ _)).le.trans hless.le
      obtain ⟨status, after, hchildren, -, -, hcount, -⟩ :=
        template_renders core (helper.placed template) hheight rfl rfl ⟨rfl, rfl⟩
      have hmodelled : outcomes.renderChildren (helper.placed template) = (status, after) := by
        have hbound : depth + 1 + helper.renderTemplateCount -
            (helper.placed template).renderTemplateCount = depth := by
          rw [Helper.placed]
          dsimp only
          omega
        simp only [outcomes, modelled, hbound, hchildren, Option.getD_some]
      rw [renderTrees_template hgo rfl hfind hmodelled hcount]
      obtain ⟨⟨_, _⟩, hchildren', hrun⟩ := Option.bind_eq_some_iff.1 hrun
      cases hchildren.symm.trans hchildren'
      dsimp only at hrun ⊢
      by_cases hbreak : after.nextTemplateName = []
      · rw [if_neg (not_not_intro hbreak)] at hrun ⊢
        cases hrun
        exact ⟨rfl, rfl⟩
      · rw [if_pos hbreak] at hrun ⊢
        obtain ⟨rest, hrest, hrendering⟩ := Option.bind_eq_some_iff.1 hrun
        cases hrendering
        have hleft : globals.maxRenderTemplateCount ≤ after.renderTemplateCount + left := by
          rw [hcount, Helper.placed]
          dsimp only
          omega
        have hrendered := ih (some (.rendered (helper.renderTemplateCount + 1))) hless hleft hrest
        dsimp only at hrendered
        rw [show after.renderTemplateCount = helper.renderTemplateCount + 1 from hcount,
          ← hnext] at hrendered
        exact hrendered

/-! ## A search frees its trees -/

variable {stack : Option Tree} {created : Event} {search : Search Event}

variable (core globals outcomes stack created) in
/-- How a search with a binding ends: with a tree only when its templates have been rendered. -/
lemma run_ends (hbinding : search.binding ≠ none) :
    let rendered := renderTrees globals outcomes (search.helper core created) stack
    search.run core globals outcomes stack created =
        ⟨none, rendered.operations ++ [.free rendered.xmlOut]⟩ ∨
      rendered.status = .success ∧ search.run core globals outcomes stack created =
        ⟨some .parsed, rendered.operations ++ [.new .parsed] ++ [.free rendered.xmlOut]⟩ := by
  intro rendered
  obtain ⟨binding, hbinding⟩ := Option.ne_none_iff_exists'.1 hbinding
  simp only [Search.run, hbinding]
  split_ifs with hfailed
  · exact .inl rfl
  · exact .inl rfl
  · exact .inl rfl
  · exact .inr ⟨not_not.1 hfailed, rfl⟩
  · exact .inl rfl

variable (core globals outcomes stack created) in
/-- What is on the stack is freed first. -/
lemma run_first (hbinding : search.binding ≠ none) :
    ∃ rest, (search.run core globals outcomes stack created).operations = .free stack :: rest := by
  rcases run_ends core globals outcomes stack created hbinding with hrun | ⟨hsuccess, hrun⟩ <;>
    rcases renderTrees_first globals outcomes (search.helper core created) stack with
      ⟨hfailed, hout, hops⟩ | ⟨rest, hops⟩
  · exact ⟨[], by rw [hrun, hops, hout]; rfl⟩
  · exact ⟨rest ++ _, by rw [hrun, hops]; rfl⟩
  · rw [hfailed] at hsuccess
    cases hsuccess
  · exact ⟨rest ++ _ ++ _, by rw [hrun, hops]; rfl⟩

/-- The tree that is parsed is kept. -/
lemma Holding.returned {n : ℕ} (h : Holding n xmlOut before) :
    FreesOnce {.parsed} (before ++ [.new .parsed] ++ [.free xmlOut]) := by
  have hnew : .new .parsed ∉ before := fun hmem => by
    obtain ⟨m, -, hsame⟩ := h.numbered _ hmem
    cases hsame
  refine FreesOnce.freePointer ?_ fun tree htree hparsed => ?_
  · rw [Finset.union_comm, ← Finset.insert_eq]
    exact h.frees.new hnew
  · cases Finset.mem_singleton.1 hparsed
    exact hnew (h.frees.created _ (Option.mem_toFinset.2 htree))

/-- **The trees of a search.**  Every tree that is freed has been created by the search and not been
freed yet, and every tree that is created is freed once, but the one that is returned, exactly when
the search has no binding or what is on the stack where the helper is happens to be null. -/
theorem search_frees_once_iff (core : Core Event) (globals : Globals) (outcomes : Outcomes Event)
    (stack : Option Tree) (created : Event) (search : Search Event) :
    FreesOnce (search.run core globals outcomes stack created).xmlOut.toFinset
        (search.run core globals outcomes stack created).operations ↔
      search.binding = none ∨ stack = none := by
  by_cases hbinding : search.binding = none
  · refine iff_of_true ?_ (.inl hbinding)
    simp only [Search.run, hbinding]
    exact FreesOnce.nil
  rw [or_iff_right hbinding]
  constructor
  · intro h
    by_contra hstack
    obtain ⟨tree, rfl⟩ := Option.ne_none_iff_exists'.1 hstack
    obtain ⟨rest, hrest⟩ := run_first core globals outcomes (some tree) created hbinding
    rw [hrest] at h
    exact not_freesOnce_of_first h
  · rintro rfl
    have hholding : Holding (search.helper core created).renderTemplateCount none [] :=
      ⟨FreesOnce.nil, nofun⟩
    have hrendered := renderTrees_frees globals outcomes hholding
    rw [List.nil_append] at hrendered
    rcases run_ends core globals outcomes none created hbinding with hrun | ⟨-, hrun⟩
    · rw [hrun]
      exact hrendered.free.frees
    · rw [hrun]
      exact hrendered.returned

/-- Events without headers. -/
def bareCore : Core Unit where
  getHeader _ _ := none
  delHeader event _ := event
  addHeader event _ _ := event
  expandHeaders _ text := text
  freedValue _ _ := []
  exec _ := none

def bareGlobals : Globals where
  templatesTag := .node ⟨"templates".toList, [], nofun⟩ []
  maxRenderTemplateCount := 15

def dialplanSearch : Search Unit where
  binding := some "dialplan".toList
  sectionName := some "dialplan".toList
  tagName := none
  keyName := none
  keyValue := none
  event := some ()

/-- Whatever is on the stack is freed as if it were a tree. -/
theorem stack_is_freed :
    ¬ ∀ (Event : Type) (core : Core Event) (globals : Globals) (outcomes : Outcomes Event)
      (stack : Option Tree) (created : Event) (search : Search Event),
      FreesOnce (search.run core globals outcomes stack created).xmlOut.toFinset
        (search.run core globals outcomes stack created).operations := by
  intro h
  have hfrees := h Unit bareCore bareGlobals (modelled bareCore 20 3 1 true) (some .stack) ()
    dialplanSearch
  obtain ⟨rest, hrest⟩ := run_first bareCore bareGlobals (modelled bareCore 20 3 1 true)
    (some .stack) () (nofun : dialplanSearch.binding ≠ none)
  rw [hrest] at hfrees
  exact not_freesOnce_of_first hfrees

end FreeswitchContrib.XmlOdbc

import FreeswitchContrib.XmlOdbc.CleanStart

/-!
# How `mod_xml_radius` copies a template

`xml_radius_expand_tag` is given a pointer to the counter by which tags are inserted.  `*off++` reads
the integer there and moves the pointer, which belongs to the call: the counter is never changed,
and the tags below a new one are inserted by what happens to be behind the counter.

* `expandTag`, `expandTemplate` — the functions, with the integers that they read.
* `CopiedFaithfully` — the template is copied, by its counter alone.
* `expandChildren_leaves` — tags without children come behind each other, by one unchanged counter.
* **`copied_faithfully_iff`** — a template is copied when it has two levels, and no attribute twice.
-/

namespace FreeswitchContrib.XmlRadius

open CString RoseTree
open XmlOdbc (Text Opening Tag Element OutTag insertTag onTag setAttr newXml asRoot)

/-! ## Templates -/

section

variable (expand : Text → Text) (ints : ℕ → ℕ)

/-- The tree that `xml_out` points to, after a call, and where the call has read integers: 0 is the
counter, and the others are behind it. -/
structure Copy where
  xmlOut : RoseTree OutTag
  reads : List ℕ

/-- The loop over the attributes of `xml_in`. -/
def setAttrs (attrs : List (Text × Text)) (xmlOut : RoseTree OutTag) : RoseTree OutTag :=
  attrs.foldl (fun xmlOut attr => onTag (fun out => { out with
    attrs := setAttr out.attrs attr.1 (expand attr.2) }) xmlOut) xmlOut

mutual

/-- `xml_radius_expand_tag` -/
def expandTag : Tag → RoseTree OutTag → ℕ → Copy
  | .node tag children, xmlOut, off =>
    if xmlOut.label.name = [] then
      let named := onTag (fun out => { out with name := tag.name }) xmlOut
      expandChildren children (setAttrs expand tag.attrs named) off
    else
      let added := insertTag ⟨⟨tag.name, []⟩, ints off⟩ xmlOut
      let place := (xmlOut.children.takeWhile (·.label.off ≤ ints off)).length
      let new := .node ⟨⟨tag.name, []⟩, ints off⟩ []
      -- the pointer is moved, and not what it points to
      let child := expandChildren children (setAttrs expand tag.attrs new) (off + 1)
      ⟨added.modify [place] fun _ => child.xmlOut, off :: child.reads⟩

/-- The loop over the tags in a tag. -/
def expandChildren : List Tag → RoseTree OutTag → ℕ → Copy
  | [], xmlOut, _ => ⟨xmlOut, []⟩
  | tag :: tags, xmlOut, off =>
    let first := expandTag tag xmlOut off
    let rest := expandChildren tags first.xmlOut off
    ⟨rest.xmlOut, first.reads ++ rest.reads⟩

end

/-- The first template of this name. -/
def findTemplate (templatesTag : Tag) (templateName : Text) : Option Tag :=
  templatesTag.children.find? fun tag =>
    tag.label.name == "template".toList && tag.label.attrSoft "name".toList == templateName

/-- `xml_radius_expand_template`; none is `SWITCH_STATUS_FALSE`. -/
def expandTemplate (templatesTag : Tag) (templateName : Text) (xmlOut : RoseTree OutTag) :
    Option Copy :=
  (findTemplate templatesTag templateName).map fun templateTag =>
    expandChildren expand ints templateTag.children xmlOut 0

/-! ## The statement -/

/-- A tag of a template with its values expanded. -/
def expanded (tag : Opening) : Element := ⟨tag.name, tag.attrs.map fun a => (a.1, expand a.2)⟩

/-- The output is the tree of the tags of the template, of which the first is the root, and no
integer was read but the counter. -/
structure CopiedFaithfully (tags : List Tag) (copy : Copy) : Prop where
  tree : copy.xmlOut.map OutTag.toElement = asRoot (tags.map (RoseTree.map (expanded expand)))
  reads : ∀ i ∈ copy.reads, i = 0

end

/-- No tag has children, but the first one may have some without children. -/
def Flat : List Tag → Prop
  | [] => True
  | first :: rest => ∀ tag ∈ first.children ++ rest, tag.children = []

/-- No attribute is there twice. -/
def Once (tag : Opening) : Prop := (tag.attrs.map Prod.fst).Nodup

instance (tag : Opening) : Decidable (Once tag) :=
  inferInstanceAs (Decidable (tag.attrs.map Prod.fst).Nodup)

/-! ## What is read -/

variable {expand : Text → Text} {ints : ℕ → ℕ} {xmlOut : RoseTree OutTag} {off : ℕ}

lemma setAttrs_eq (expand : Text → Text) (xmlOut : RoseTree OutTag) (attrs : List (Text × Text)) :
    ∃ set, setAttrs expand attrs xmlOut =
      .node { xmlOut.label with attrs := set } xmlOut.children := by
  induction attrs generalizing xmlOut with
  | nil =>
    cases xmlOut
    exact ⟨_, rfl⟩
  | cons attr attrs ih =>
    obtain ⟨set, hset⟩ := ih (onTag (fun out => { out with
      attrs := setAttr out.attrs attr.1 (expand attr.2) }) xmlOut)
    exact ⟨set, hset⟩

lemma setAttrs_name (attrs : List (Text × Text)) :
    (setAttrs expand attrs xmlOut).label.name = xmlOut.label.name := by
  obtain ⟨set, hset⟩ := setAttrs_eq expand xmlOut attrs
  rw [hset]
  rfl

lemma expandTag_named (tag : Tag) (h : xmlOut.label.name ≠ []) :
    expandTag expand ints tag xmlOut off =
      let added := insertTag ⟨⟨tag.label.name, []⟩, ints off⟩ xmlOut
      let place := (xmlOut.children.takeWhile (·.label.off ≤ ints off)).length
      let new := .node ⟨⟨tag.label.name, []⟩, ints off⟩ []
      let child := expandChildren expand ints tag.children
        (setAttrs expand tag.label.attrs new) (off + 1)
      ⟨added.modify [place] fun _ => child.xmlOut, off :: child.reads⟩ := by
  cases tag with
  | node tag children =>
    rw [expandTag, if_neg h]
    rfl

lemma expandTag_name (tag : Tag) (h : xmlOut.label.name ≠ []) :
    (expandTag expand ints tag xmlOut off).xmlOut.label.name = xmlOut.label.name := by
  rw [expandTag_named tag h]
  dsimp only
  rw [modify_cons]
  rfl

/-- Where the output has its name, every tag reads the integer that it is given. -/
lemma off_mem_reads {tags : List Tag} {tag : Tag} (h : xmlOut.label.name ≠ []) (htag : tag ∈ tags) :
    off ∈ (expandChildren expand ints tags xmlOut off).reads := by
  cases tags with
  | nil => cases htag
  | cons first rest =>
    rw [expandChildren, expandTag_named first h]
    exact List.mem_cons_self

/-- **A tag in a new tag reads the integer behind.** -/
lemma next_mem_reads {tags : List Tag} {tag : Tag} (h : xmlOut.label.name ≠ []) (htag : tag ∈ tags)
    (hchildren : tag.children ≠ []) :
    off + 1 ∈ (expandChildren expand ints tags xmlOut off).reads := by
  induction tags generalizing xmlOut with
  | nil => cases htag
  | cons first rest ih =>
    rw [expandChildren]
    refine List.mem_append.mpr ?_
    rcases List.mem_cons.mp htag with rfl | htag
    · left
      rw [expandTag_named tag h]
      refine List.mem_cons_of_mem _ ?_
      obtain ⟨child, hchild⟩ := List.exists_mem_of_ne_nil _ hchildren
      refine off_mem_reads ?_ hchild
      rw [setAttrs_name]
      exact tag.label.named
    · right
      refine ih ?_ htag
      rw [expandTag_name first h]
      exact h

lemma expandChildren_append (tags more : List Tag) :
    expandChildren expand ints (tags ++ more) xmlOut off =
      let first := expandChildren expand ints tags xmlOut off
      let rest := expandChildren expand ints more first.xmlOut off
      ⟨rest.xmlOut, first.reads ++ rest.reads⟩ := by
  induction tags generalizing xmlOut with
  | nil => rfl
  | cons tag tags ih =>
    rw [List.cons_append, expandChildren, ih, expandChildren]
    dsimp only
    rw [List.append_assoc]

/-- The root with its name, and the attributes of the first tag. -/
def namedRoot (expand : Text → Text) (first : Opening) : RoseTree OutTag :=
  setAttrs expand first.attrs (.node ⟨⟨first.name, []⟩, 0⟩ [])

lemma namedRoot_name (first : Opening) : (namedRoot expand first).label.name ≠ [] := by
  rw [namedRoot, setAttrs_name]
  exact first.named

/-- The first tag gives the root its name, and its children and the other tags come below it. -/
lemma expandChildren_newXml (first : Tag) (rest : List Tag) :
    expandChildren expand ints (first :: rest) newXml 0 =
      expandChildren expand ints (first.children ++ rest) (namedRoot expand first.label) 0 := by
  have hfirst : expandTag expand ints first newXml 0 =
      expandChildren expand ints first.children (namedRoot expand first.label) 0 := by
    cases first with
    | node tag children =>
      rw [expandTag]
      exact if_pos rfl
  rw [expandChildren_append, expandChildren, hfirst]

/-! ## Tags without children -/

/-- The attributes that the loop leaves: one for each name. -/
def copiedAttrs (expand : Text → Text) (attrs : List (Text × Text)) : List (Text × Text) :=
  attrs.foldl (fun set attr => setAttr set attr.1 (expand attr.2)) []

def copied (expand : Text → Text) (tag : Opening) : Element :=
  ⟨tag.name, copiedAttrs expand tag.attrs⟩

lemma setAttrs_shown (tag : Opening) (out : ℕ) :
    (setAttrs expand tag.attrs (.node ⟨⟨tag.name, []⟩, out⟩ [])).map OutTag.toElement =
      .node (copied expand tag) [] :=
  XmlOdbc.map_copied expand tag.attrs _

/-- A tag without children comes behind the others when none of them has a greater offset. -/
lemma expandTag_leaf (expand : Text → Text) {tag : Tag} (hleaf : tag.children = [])
    (hname : xmlOut.label.name ≠ [])
    (hoffs : xmlOut.All (·.off ≤ ints off)) :
    let copy := expandTag expand ints tag xmlOut off
    copy.reads = [off] ∧ copy.xmlOut.All (·.off ≤ ints off) ∧
      copy.xmlOut.map OutTag.toElement = .node xmlOut.label.toElement
        (xmlOut.children.map (RoseTree.map OutTag.toElement) ++
          [.node (copied expand tag.label) []]) := by
  intro copy
  have hcopy : copy = expandTag expand ints tag xmlOut off := rfl
  let out : OutTag := ⟨⟨tag.label.name, []⟩, ints off⟩
  obtain ⟨hinsert, hlength⟩ := XmlOdbc.insertTag_last (show xmlOut.All (·.off ≤ out.off) from hoffs)
  rw [expandTag_named tag hname, hleaf, hinsert, hlength] at hcopy
  dsimp only at hcopy
  rw [modify_last, expandChildren] at hcopy
  have hnew : (setAttrs expand tag.label.attrs (.node out [])).All (·.off ≤ ints off) :=
    XmlOdbc.all_copied (p := (· ≤ ints off)) expand tag.label.attrs
      (.node le_rfl fun _ h => nomatch h)
  rw [hcopy]
  refine ⟨rfl, .node hoffs.label fun c hc => ?_, ?_⟩
  · rcases List.mem_append.mp hc with hc | hc
    · exact hoffs.child hc
    · cases List.mem_singleton.mp hc
      exact hnew
  · rw [map, mapForest_eq, List.map_append, List.map_singleton, setAttrs_shown]

/-- All tags without children come behind each other, and read the one integer. -/
lemma expandChildren_leaves (expand : Text → Text) {tags : List Tag}
    (hleaf : ∀ tag ∈ tags, tag.children = [])
    (hname : xmlOut.label.name ≠ []) (hoffs : xmlOut.All (·.off ≤ ints off)) :
    let copy := expandChildren expand ints tags xmlOut off
    (∀ i ∈ copy.reads, i = off) ∧
      copy.xmlOut.map OutTag.toElement = .node xmlOut.label.toElement
        (xmlOut.children.map (RoseTree.map OutTag.toElement) ++
          tags.map fun tag => .node (copied expand tag.label) []) := by
  induction tags generalizing xmlOut with
  | nil =>
    refine ⟨fun i hi => absurd hi List.not_mem_nil, ?_⟩
    rw [List.map_nil, List.append_nil]
    cases xmlOut with
    | node a cs => exact congrArg _ (mapForest_eq _ cs)
  | cons tag tags ih =>
    intro copy
    obtain ⟨hleaf, hleaves⟩ := List.forall_mem_cons.mp hleaf
    obtain ⟨hreads, hall, hshown⟩ := expandTag_leaf expand hleaf hname hoffs
    obtain ⟨hothers, hrest⟩ := ih hleaves ((expandTag_name tag hname).trans_ne hname) hall
    have hlabel := congrArg RoseTree.label hshown
    have hchildren := congrArg RoseTree.children hshown
    rw [label_map] at hlabel
    rw [children_map] at hchildren
    refine ⟨fun i hi => ?_, ?_⟩
    · rcases List.mem_append.mp hi with hi | hi
      · rw [hreads] at hi
        exact List.mem_singleton.mp hi
      · exact hothers i hi
    · show RoseTree.map _ (expandChildren expand ints tags _ off).xmlOut = _
      rw [hrest, hlabel, hchildren]
      show RoseTree.node _ ((_ ++ [_]) ++ _) = _
      rw [List.append_assoc, List.singleton_append, List.map_cons]
      rfl

/-! ## Attributes -/

variable {attrs set : List (Text × Text)}

/-- A name that is new comes last. -/
lemma setAttr_new {name value : Text} (h : ∀ a ∈ set, a.1 ≠ name) :
    setAttr set name value = set ++ [(name, value)] := by
  induction set with
  | nil => rfl
  | cons a set ih =>
    obtain ⟨ha, hset⟩ := List.forall_mem_cons.mp h
    rw [setAttr, if_neg ha, ih hset, List.cons_append]

lemma copied_once (h : ((set ++ attrs).map Prod.fst).Nodup) :
    attrs.foldl (fun set attr => setAttr set attr.1 (expand attr.2)) set =
      set ++ attrs.map fun a => (a.1, expand a.2) := by
  induction attrs generalizing set with
  | nil => exact (List.append_nil set).symm
  | cons attr attrs ih =>
    have hnew : ∀ a ∈ set, a.1 ≠ attr.1 := by
      intro a ha hname
      rw [List.map_append, List.nodup_append] at h
      exact h.2.2 a.1 (List.mem_map_of_mem ha) attr.1
        (List.mem_map_of_mem List.mem_cons_self) hname
    have honce : (((set ++ [(attr.1, expand attr.2)]) ++ attrs).map Prod.fst).Nodup := by
      rw [List.append_assoc, List.map_append]
      rw [List.map_append] at h
      exact h
    rw [List.foldl_cons, setAttr_new hnew, ih honce, List.append_assoc]
    rfl

lemma nodup_copied (h : (set.map Prod.fst).Nodup) :
    ((attrs.foldl (fun set attr => setAttr set attr.1 (expand attr.2)) set).map Prod.fst).Nodup := by
  induction attrs generalizing set with
  | nil => exact h
  | cons attr attrs ih => exact ih (XmlOdbc.nodup_setAttr h)

/-- The attributes of a tag are copied where no name is there twice. -/
lemma copied_eq_expanded (tag : Opening) : copied expand tag = expanded expand tag ↔ Once tag := by
  constructor
  · intro h
    have hattrs : copiedAttrs expand tag.attrs = tag.attrs.map fun a => (a.1, expand a.2) :=
      congrArg Element.attrs h
    have hnodup : ((copiedAttrs expand tag.attrs).map Prod.fst).Nodup :=
      nodup_copied List.Pairwise.nil
    rw [hattrs, List.map_map] at hnodup
    exact hnodup
  · intro h
    rw [copied, expanded, copiedAttrs, copied_once (by rwa [List.nil_append]), List.nil_append]

/-! ## The template -/

lemma map_leaf {tag : Tag} (hleaf : tag.children = []) :
    tag.map (expanded expand) = .node (expanded expand tag.label) [] := by
  cases tag with
  | node a cs =>
    rw [map, mapForest_eq, show cs = [] from hleaf]
    rfl

/-- What a template of two levels comes to. -/
lemma expandChildren_flat (expand : Text → Text) (ints : ℕ → ℕ) {first : Tag} {rest : List Tag}
    (hflat : Flat (first :: rest)) :
    let copy := expandChildren expand ints (first :: rest) newXml 0
    (∀ i ∈ copy.reads, i = 0) ∧ copy.xmlOut.map OutTag.toElement =
      .node (copied expand first.label)
        ((first.children ++ rest).map fun tag => .node (copied expand tag.label) []) := by
  have hroot : (namedRoot expand first.label).All (·.off ≤ ints 0) :=
    XmlOdbc.all_copied (p := (· ≤ ints 0)) expand first.label.attrs
      (.node (Nat.zero_le _) fun _ h => nomatch h)
  have hshown : (namedRoot expand first.label).map OutTag.toElement =
      .node (copied expand first.label) [] := setAttrs_shown first.label 0
  have hlabel := congrArg RoseTree.label hshown
  have hchildren := congrArg RoseTree.children hshown
  rw [label_map] at hlabel
  rw [children_map] at hchildren
  obtain ⟨hreads, htree⟩ := expandChildren_leaves expand hflat
    (namedRoot_name first.label) hroot
  rw [expandChildren_newXml]
  refine ⟨hreads, ?_⟩
  rw [htree, hlabel, hchildren]
  rfl

/-- The tree of a template of two levels. -/
lemma asRoot_flat {first : Tag} {rest : List Tag} (hflat : Flat (first :: rest)) :
    asRoot ((first :: rest).map (RoseTree.map (expanded expand))) =
      .node (expanded expand first.label)
        ((first.children ++ rest).map fun tag => .node (expanded expand tag.label) []) := by
  rw [List.map_cons, asRoot, label_map, children_map, ← List.map_append]
  refine congrArg _ (List.map_congr_left fun tag htag => ?_)
  exact map_leaf (hflat tag htag)

/-- Deeper tags read what is behind the counter. -/
lemma flat_of_reads {tags : List Tag}
    (h : ∀ i ∈ (expandChildren expand ints tags newXml 0).reads, i = 0) : Flat tags := by
  cases tags with
  | nil => trivial
  | cons first rest =>
    rw [expandChildren_newXml] at h
    intro tag htag
    by_contra hchildren
    exact absurd (h _ (next_mem_reads (namedRoot_name first.label) htag hchildren)) Nat.one_ne_zero

lemma all_once_flat {first : Tag} {rest : List Tag} (hflat : Flat (first :: rest)) :
    (∀ tag ∈ first :: rest, tag.All Once) ↔
      Once first.label ∧ ∀ tag ∈ first.children ++ rest, Once tag.label := by
  have hleaf : ∀ tag ∈ first.children ++ rest, Once tag.label → tag.All Once := by
    intro tag htag honce
    cases tag with
    | node a cs =>
      refine .node honce fun c hc => ?_
      rw [show cs = [] from hflat _ htag] at hc
      cases hc
  constructor
  · intro h
    obtain ⟨hfirst, hrest⟩ := List.forall_mem_cons.mp h
    refine ⟨hfirst.label, fun tag htag => ?_⟩
    rcases List.mem_append.mp htag with htag | htag
    · exact (hfirst.child htag).label
    · exact (hrest tag htag).label
  · rintro ⟨hfirst, hothers⟩
    refine List.forall_mem_cons.mpr ⟨?_, fun tag htag => ?_⟩
    · cases first with
      | node a cs =>
        refine .node hfirst fun c hc => ?_
        have hmem := List.mem_append_left rest hc
        exact hleaf c hmem (hothers c hmem)
    · have hmem := List.mem_append_right first.children htag
      exact hleaf tag hmem (hothers tag hmem)

/-- With two levels it is the attributes that decide. -/
lemma tree_iff {first : Tag} {rest : List Tag} (hflat : Flat (first :: rest)) :
    (expandChildren expand ints (first :: rest) newXml 0).xmlOut.map OutTag.toElement =
      asRoot ((first :: rest).map (RoseTree.map (expanded expand))) ↔
        ∀ tag ∈ first :: rest, tag.All Once := by
  rw [(expandChildren_flat expand ints hflat).2, asRoot_flat hflat,
    all_once_flat hflat, node.injEq, copied_eq_expanded, List.map_inj_left]
  refine and_congr_right fun _ => forall₂_congr fun tag _ => ?_
  rw [node.injEq, and_iff_left rfl, copied_eq_expanded]

lemma tags_copied_iff (expand : Text → Text) (ints : ℕ → ℕ) (tags : List Tag) :
    CopiedFaithfully expand tags (expandChildren expand ints tags newXml 0) ↔
      Flat tags ∧ ∀ tag ∈ tags, tag.All Once := by
  cases tags with
  | nil =>
    refine iff_of_true ⟨rfl, fun i hi => absurd hi List.not_mem_nil⟩ ⟨trivial, ?_⟩
    exact fun _ h => absurd h List.not_mem_nil
  | cons first rest =>
    constructor
    · intro h
      have hflat := flat_of_reads h.reads
      exact ⟨hflat, (tree_iff hflat).mp h.tree⟩
    · rintro ⟨hflat, honce⟩
      exact ⟨(tree_iff hflat).mpr honce, (expandChildren_flat expand ints hflat).1⟩

/-- **A template is copied faithfully exactly where it is flat** and no tag has an attribute
twice. -/
theorem copied_faithfully_iff {templatesTag template : Tag} {templateName : Text}
    (expand : Text → Text) (ints : ℕ → ℕ)
    (htemplate : findTemplate templatesTag templateName = some template) :
    (∃ copy, expandTemplate expand ints templatesTag templateName newXml = some copy ∧
      CopiedFaithfully expand template.children copy) ↔
      Flat template.children ∧ ∀ tag ∈ template.children, tag.All Once := by
  rw [expandTemplate, htemplate, ← tags_copied_iff expand ints]
  constructor
  · rintro ⟨copy, hcopy, hfaithful⟩
    cases hcopy
    exact hfaithful
  · exact fun h => ⟨_, rfl, h⟩

/-! ## Two templates -/

def opening (name : String) (attrs : List (Text × Text)) (h : name.toList ≠ []) : Opening :=
  ⟨name.toList, attrs, h⟩

/-- A template of a section with these tags in it. -/
def sectionTemplate (tags : List Tag) : Tag :=
  .node (opening "template" [("name".toList, "directory".toList)] (by decide))
    [.node (opening "section" [("name".toList, "directory".toList)] (by decide)) tags]

/-- The tag of a domain with these tags in it. -/
def domain (tags : List Tag) : Tag := .node (opening "domain" [] (by decide)) tags

def templates (tags : List Tag) : Tag :=
  .node (opening "templates" [] (by decide)) [sectionTemplate tags]

theorem copied_faithfully_two_levels :
    ∃ copy, expandTemplate id (fun _ => 0) (templates [domain []]) "directory".toList newXml =
      some copy ∧ CopiedFaithfully id (sectionTemplate [domain []]).children copy := by
  refine (copied_faithfully_iff id (fun _ => 0) rfl).mpr ⟨?_, ?_⟩
  · intro tag htag
    cases List.mem_singleton.mp htag
    rfl
  · intro tag htag
    cases List.mem_singleton.mp htag
    refine .node (by decide) fun c hc => ?_
    cases List.mem_singleton.mp hc
    exact .node (by decide) fun _ h => nomatch h

/-- The third level is inserted by the integer behind the counter. -/
theorem third_level_reads_behind :
    ¬ ∃ copy, expandTemplate id (fun _ => 0) (templates [domain [domain []]]) "directory".toList
      newXml = some copy ∧
        CopiedFaithfully id (sectionTemplate [domain [domain []]]).children copy := by
  rintro ⟨copy, hcopy, hfaithful⟩
  cases hcopy
  exact absurd (hfaithful.reads 1 (by decide)) (by decide)

end FreeswitchContrib.XmlRadius

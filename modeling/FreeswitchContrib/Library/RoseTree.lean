import Mathlib.Data.List.Basic

/-!
# Ordered trees with a cursor

Trees whose nodes have a label and a list of children.  A place in a tree is the path to it from the
root, as the positions among the children; `modify` changes the tree that is there.

* `modify_append`, `modify_modify`, `modify_foldl` — changes at one place, and below it.
* **`map_modify`** — the labels may be read before a change or after it.
* `All.modify` — a property of all labels that the change keeps.
-/

inductive RoseTree (α : Type) where
  | node (label : α) (children : List (RoseTree α))

namespace RoseTree

variable {α β ι : Type}

def label : RoseTree α → α
  | node a _ => a

def children : RoseTree α → List (RoseTree α)
  | node _ cs => cs

/-- The tree at this place. -/
def get? : RoseTree α → List ℕ → Option (RoseTree α)
  | t, [] => some t
  | t, i :: path => t.children[i]?.bind fun child => child.get? path

/-- The tree after the change of what is at this place. -/
def modify (t : RoseTree α) (path : List ℕ) (f : RoseTree α → RoseTree α) : RoseTree α :=
  match path with
  | [] => f t
  | i :: path => node t.label (t.children.modify i fun child => child.modify path f)

mutual

/-- The tree with its labels read so. -/
def map (g : α → β) : RoseTree α → RoseTree β
  | node a cs => node (g a) (mapForest g cs)

def mapForest (g : α → β) : List (RoseTree α) → List (RoseTree β)
  | [] => []
  | t :: ts => map g t :: mapForest g ts

end

mutual

def height : RoseTree α → ℕ
  | node _ cs => heightForest cs + 1

def heightForest : List (RoseTree α) → ℕ
  | [] => 0
  | t :: ts => max (height t) (heightForest ts)

end

/-- All labels of the tree are so. -/
inductive All (p : α → Prop) : RoseTree α → Prop where
  | node {a : α} {cs : List (RoseTree α)} : p a → (∀ c ∈ cs, All p c) → All p (node a cs)

@[simp] lemma get?_nil (t : RoseTree α) : t.get? [] = some t := by
  cases t
  rfl

@[simp] lemma modify_nil (t : RoseTree α) (f : RoseTree α → RoseTree α) : t.modify [] f = f t := by
  cases t
  rfl

lemma get?_cons (t : RoseTree α) (i : ℕ) (path : List ℕ) :
    t.get? (i :: path) = t.children[i]?.bind fun child => child.get? path := by
  cases t
  rfl

lemma modify_cons (t : RoseTree α) (i : ℕ) (path : List ℕ) (f : RoseTree α → RoseTree α) :
    t.modify (i :: path) f =
      node t.label (t.children.modify i fun child => child.modify path f) := by
  cases t
  rfl

lemma mapForest_eq (g : α → β) (ts : List (RoseTree α)) : mapForest g ts = ts.map (map g) := by
  induction ts with
  | nil => rfl
  | cons t ts ih => rw [mapForest, ih, List.map_cons]

@[simp] lemma label_map (g : α → β) (t : RoseTree α) : (t.map g).label = g t.label := by
  cases t
  rfl

@[simp] lemma children_map (g : α → β) (t : RoseTree α) :
    (t.map g).children = t.children.map (map g) := by
  cases t with
  | node a cs => exact mapForest_eq g cs

lemma height_child {t c : RoseTree α} (h : c ∈ t.children) : c.height < t.height := by
  have hle : ∀ ts : List (RoseTree α), c ∈ ts → c.height ≤ heightForest ts := by
    intro ts hmem
    induction ts with
    | nil => cases hmem
    | cons t ts ih =>
      rw [heightForest]
      rcases List.mem_cons.mp hmem with rfl | hmem
      · exact Nat.le_max_left _ _
      · exact Nat.le_trans (ih hmem) (Nat.le_max_right _ _)
  cases t with
  | node a cs => exact Nat.lt_succ_of_le (hle cs h)

lemma height_pos (t : RoseTree α) : 0 < t.height := by
  cases t
  exact Nat.succ_pos _

/-! ## Changes -/

/-- Going on below a place. -/
lemma get?_append (t : RoseTree α) (path rest : List ℕ) :
    t.get? (path ++ rest) = (t.get? path).bind fun s => s.get? rest := by
  induction path generalizing t with
  | nil => rw [List.nil_append, get?_nil, Option.bind_some]
  | cons i path ih =>
    rw [List.cons_append, get?_cons, get?_cons, Option.bind_assoc]
    congr 1
    funext child
    exact ih child

/-- A change below a place is a change of what is there. -/
lemma modify_append (t : RoseTree α) (path rest : List ℕ) (f : RoseTree α → RoseTree α) :
    t.modify (path ++ rest) f = t.modify path fun s => s.modify rest f := by
  induction path generalizing t with
  | nil => rw [List.nil_append, modify_nil]
  | cons i path ih =>
    rw [List.cons_append, modify_cons, modify_cons]
    congr 2
    funext child
    exact ih child

lemma modify_modify (t : RoseTree α) (path : List ℕ) (f g : RoseTree α → RoseTree α) :
    (t.modify path f).modify path g = t.modify path (g ∘ f) := by
  induction path generalizing t with
  | nil => simp only [modify_nil, Function.comp_apply]
  | cons i path ih =>
    rw [modify_cons, modify_cons, modify_cons, label, children, List.modify_modify_eq]
    congr 2
    funext child
    exact ih child

lemma modify_id (t : RoseTree α) (path : List ℕ) : (t.modify path fun s => s) = t := by
  induction path generalizing t with
  | nil => rw [modify_nil]
  | cons i path ih =>
    rw [modify_cons]
    have hid : (fun child : RoseTree α => child.modify path fun s => s) = id := by
      funext child
      exact ih child
    cases t with
    | node a cs => exact congrArg (node a) ((congrArg _ hid).trans (List.modify_id i cs))

/-- A loop of changes at one place. -/
lemma modify_foldl (path : List ℕ) (f : ι → RoseTree α → RoseTree α) (l : List ι)
    (t : RoseTree α) :
    l.foldl (fun t i => t.modify path (f i)) t =
      t.modify path fun s => l.foldl (fun s i => f i s) s := by
  induction l generalizing t with
  | nil => exact (modify_id t path).symm
  | cons i l ih => rw [List.foldl_cons, ih, modify_modify]; rfl

lemma get?_modify (t : RoseTree α) (path : List ℕ) (f : RoseTree α → RoseTree α) :
    (t.modify path f).get? path = (t.get? path).map f := by
  induction path generalizing t with
  | nil => simp only [modify_nil, get?_nil, Option.map_some]
  | cons i path ih =>
    rw [modify_cons, get?_cons, get?_cons, children, List.getElem?_modify_eq]
    cases t.children[i]? with
    | none => rfl
    | some child => exact ih child

/-- A change that is the same for the tree at this place. -/
lemma modify_congr {t s : RoseTree α} {path : List ℕ} {f g : RoseTree α → RoseTree α}
    (hget : t.get? path = some s) (h : f s = g s) : t.modify path f = t.modify path g := by
  induction path generalizing t with
  | nil =>
    rw [get?_nil] at hget
    cases hget
    rw [modify_nil, modify_nil, h]
  | cons i path ih =>
    rw [get?_cons] at hget
    obtain ⟨child, hchild, hget⟩ := Option.bind_eq_some_iff.mp hget
    rw [modify_cons, modify_cons]
    congr 1
    refine List.ext_getElem? fun j => ?_
    rw [List.getElem?_modify, List.getElem?_modify]
    by_cases hj : i = j
    · subst hj
      rw [hchild, Option.map_eq_map, Option.map_some, Option.map_eq_map, Option.map_some,
        if_pos rfl, if_pos rfl, ih hget]
    · simp only [if_neg hj]

/-- The last child is where a new one was put. -/
lemma modify_last (a : α) (cs : List (RoseTree α)) (c : RoseTree α)
    (f : RoseTree α → RoseTree α) :
    (node a (cs ++ [c])).modify [cs.length] f = node a (cs ++ [f c]) := by
  rw [modify_cons, label, children]
  congr 1
  simp [List.modify_eq_take_cons_drop]

lemma get?_last (a : α) (cs : List (RoseTree α)) (c : RoseTree α) :
    (node a (cs ++ [c])).get? [cs.length] = some c := by
  rw [get?_cons, children, List.getElem?_concat_length, Option.bind_some, get?_nil]

/-! ## Labels -/

lemma get?_map (g : α → β) (t : RoseTree α) (path : List ℕ) :
    (t.map g).get? path = (t.get? path).map (map g) := by
  induction path generalizing t with
  | nil => simp only [get?_nil, Option.map_some]
  | cons i path ih =>
    rw [get?_cons, get?_cons, children_map, List.getElem?_map]
    cases t.children[i]? with
    | none => rfl
    | some child => exact ih child

/-- **The labels may be read before the change** if it does the same to what is read. -/
theorem map_modify {g : α → β} {f : RoseTree α → RoseTree α} {f' : RoseTree β → RoseTree β}
    {t s : RoseTree α} {path : List ℕ} (hget : t.get? path = some s)
    (h : (f s).map g = f' (s.map g)) : (t.modify path f).map g = (t.map g).modify path f' := by
  induction path generalizing t with
  | nil =>
    rw [get?_nil] at hget
    cases hget
    rw [modify_nil, modify_nil, h]
  | cons i path ih =>
    rw [get?_cons] at hget
    obtain ⟨child, hchild, hget⟩ := Option.bind_eq_some_iff.mp hget
    rw [modify_cons, modify_cons, map, mapForest_eq, label_map, children_map]
    congr 1
    refine List.ext_getElem? fun j => ?_
    rw [List.getElem?_map, List.getElem?_modify, List.getElem?_modify, List.getElem?_map]
    by_cases hj : i = j
    · subst hj
      simp only [hchild, Option.map_eq_map, Option.map_some, if_pos, ih hget]
    · simp only [if_neg hj, id_map']

variable {p q : α → Prop}

lemma All.label {t : RoseTree α} (h : All p t) : p t.label := by
  cases h with
  | node ha _ => exact ha

lemma All.child {t c : RoseTree α} (h : All p t) (hc : c ∈ t.children) : All p c := by
  cases h with
  | node _ hcs => exact hcs c hc

lemma All.mono {t : RoseTree α} (h : All p t) (hpq : ∀ a, p a → q a) : All q t := by
  induction h with
  | node ha _ ih => exact .node (hpq _ ha) ih

lemma All.get? {t s : RoseTree α} {path : List ℕ} (h : All p t) (hget : t.get? path = some s) :
    All p s := by
  induction path generalizing t with
  | nil =>
    rw [get?_nil] at hget
    cases hget
    exact h
  | cons i path ih =>
    rw [get?_cons] at hget
    obtain ⟨child, hchild, hget⟩ := Option.bind_eq_some_iff.mp hget
    exact ih (h.child (List.mem_of_getElem? hchild)) hget

/-- All labels are still so when those of the changed part are. -/
lemma All.modify {t : RoseTree α} {path : List ℕ} {f : RoseTree α → RoseTree α} (h : All p t)
    (hf : ∀ s, All p s → All p (f s)) : All p (t.modify path f) := by
  induction path generalizing t with
  | nil =>
    rw [modify_nil]
    exact hf t h
  | cons i path ih =>
    rw [modify_cons]
    refine .node h.label fun c hc => ?_
    obtain ⟨j, hj⟩ := List.mem_iff_getElem?.mp hc
    rw [List.getElem?_modify] at hj
    obtain ⟨child, hchild, rfl⟩ := Option.map_eq_some_iff.mp hj
    have hall := h.child (List.mem_of_getElem? hchild)
    split_ifs
    · exact ih hall
    · exact hall

end RoseTree

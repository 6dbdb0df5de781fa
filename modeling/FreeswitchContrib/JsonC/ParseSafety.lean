import FreeswitchContrib.JsonC.Tokener
import Mathlib.Tactic.IntervalCases

/-!
# Every text is parsed or refused

The stack of the tokener says what it waits for: a level below the top is one to which a value is
added, and its container is an array, or an object with the name of the member.  `Good` is this
invariant, with what is known of the values that are complete so far.

A look keeps it (`look_good`), and a look that is followed by another one at the same character
brings the end of the looks nearer (`looks`).

* `parseChar_good` — `looksPerChar` looks are enough.
* `jsonTokenerParse_good` — a text is refused, or its value is clean and nested less than
  `jsonTokenerMaxDepth` levels deep.
-/

namespace FreeswitchContrib.JsonC

open CString (nul isspace)

variable {δ : Type} {d : Doubles δ} {tok tok' : Tokener δ} {c : Char} {s : TokenerState}
  {current v : JsonObject δ} {name : Option (List Char)}

/-! ## The invariant -/

/-- What a state needs of its level. -/
def Holds (s : TokenerState) (current : JsonObject δ) (name : Option (List Char)) : Prop :=
  match s with
  | .array | .arrayAdd | .arraySep => ∃ elements, current = .array elements
  | .objectFieldStart | .objectField | .objectSep => ∃ members, current = .object members
  | .objectFieldEnd | .objectValue | .objectValueAdd =>
    (∃ members, current = .object members) ∧ ∃ key, nul ∉ key ∧ name = some key
  | _ => True

/-- The states that are waited for. -/
def Awaited (s : TokenerState) : Prop :=
  s = .start ∨ s = .finish ∨ s = .array ∨ s = .arraySep ∨ s = .objectFieldStart ∨
    s = .objectFieldEnd ∨ s = .objectValue ∨ s = .objectSep

/-- The states in which a value is added. -/
def Adding (s : TokenerState) : Prop := s = .arrayAdd ∨ s = .objectValueAdd

def Expects (level : Srec δ) : Prop :=
  match level.state with
  | .eatws | .commentStart | .comment | .commentEol | .commentEnd =>
    Awaited level.savedState ∧ Holds level.savedState level.current level.objFieldName
  | .stringEscape | .escapeUnicode =>
    (level.savedState = .string ∨ level.savedState = .objectField) ∧
      Holds level.savedState level.current level.objFieldName
  | s => Holds s level.current level.objFieldName

/-- A value that may stand at this depth. -/
structure Fits (depth : ℕ) (v : JsonObject δ) : Prop where
  clean : Clean v
  nesting : nesting v + depth < jsonTokenerMaxDepth

def GoodBelow : List (Srec δ) → Prop
  | [] => True
  | level :: below => Adding level.state ∧ Holds level.state level.current level.objFieldName ∧
      Fits below.length level.current ∧ GoodBelow below

structure Good (tok : Tokener δ) : Prop where
  expects : Expects tok.top
  current : Fits tok.depth tok.top.current
  below : GoodBelow tok.below
  obj : Adding tok.top.state → Fits (tok.depth + 1) tok.obj

lemma Good.depth_lt (h : Good tok) : tok.depth < jsonTokenerMaxDepth :=
  Nat.lt_of_le_of_lt (Nat.le_add_left _ _) h.current.nesting

lemma expects_of_awaited (level : Srec δ) (hs : Awaited level.state)
    (h : Holds level.state level.current level.objFieldName) :
    Expects level ∧ ¬Adding level.state := by
  obtain ⟨state, savedState, current, name⟩ := level
  dsimp only at hs h ⊢
  rcases hs with rfl | rfl | rfl | rfl | rfl | rfl | rfl | rfl <;>
    exact ⟨h, by simp [Adding]⟩

lemma good_new : Good (Tokener.new : Tokener δ) where
  expects := ⟨.inl rfl, trivial⟩
  current := ⟨.null, Nat.zero_lt_succ 31⟩
  below := trivial
  obj h := absurd h (by simp [Adding, Tokener.new, Srec.reset])

/-- The same level in another state. -/
lemma Good.of_same (h : Good tok) (hbelow : tok'.below = tok.below)
    (hcurrent : tok'.top.current = tok.top.current) (hexpects : Expects tok'.top)
    (hadding : ¬Adding tok'.top.state) : Good tok' where
  expects := hexpects
  current := by rw [Tokener.depth, hbelow, hcurrent]; exact h.current
  below := hbelow ▸ h.below
  obj hs := absurd hs hadding

/-- The level as it is. -/
lemma Good.of_top (h : Good tok) (hbelow : tok'.below = tok.below) (htop : tok'.top = tok.top)
    (hadding : ¬Adding tok.top.state) : Good tok' :=
  h.of_same hbelow (htop ▸ rfl) (htop ▸ h.expects) (htop ▸ hadding)

/-- A value is complete, or a container is begun. -/
lemma Good.of_value (h : Good tok) (hbelow : tok'.below = tok.below)
    (hclean : Clean tok'.top.current) (hnesting : nesting tok'.top.current = 0)
    (hexpects : Expects tok'.top) (hadding : ¬Adding tok'.top.state) : Good tok' where
  expects := hexpects
  current := by
    rw [Tokener.depth, hbelow]
    exact ⟨hclean, by rw [hnesting, Nat.zero_add]; exact h.depth_lt⟩
  below := hbelow ▸ h.below
  obj hs := absurd hs hadding

/-! ## One look -/

/-- How many looks a character takes in this state, at most. -/
def looksIn (tok : Tokener δ) (c : Char) : TokenerState → ℕ
  | .number => if c ∈ jsonNumberChars then 1 else 6
  | .null => if tok.stPos = 4 then 6 else 1
  | .boolean => if tok.stPos = 4 ∨ tok.stPos = 5 then 6 else 1
  | .start => 2
  | .array => 4
  | .objectValue => 4
  | .finish => 4
  | .arrayAdd => 3
  | .objectValueAdd => 3
  | _ => 1

def looks (tok : Tokener δ) (c : Char) : ℕ :=
  if tok.top.state = .eatws then looksIn tok c tok.top.savedState + 1
  else looksIn tok c tok.top.state

/-- The invariant is kept, and the end of the looks is nearer. -/
def LookGood (tok : Tokener δ) (c : Char) : Look δ → Prop
  | .next tok' => Good tok'
  | .redo tok' => Good tok' ∧ looks tok' c < looks tok c
  | .out tok' none => Fits 0 tok'.top.current
  | .out _ (some _) => True
  | .fault => False

lemma mem_jsonNumberChars (hc : c.isDigit = true ∨ c = '-') : c ∈ jsonNumberChars := by
  rcases hc with hc | rfl
  · obtain ⟨hlow, hhigh⟩ := Char.isDigit_iff_toNat.1 hc
    rw [← Char.ofNat_toNat c]
    generalize c.toNat = n at hlow hhigh
    change 48 ≤ n at hlow
    change n ≤ 57 at hhigh
    interval_cases n <;> decide
  · decide

lemma good_await {state : TokenerState} (h : Good tok) (hawaited : Awaited state)
    (hholds : Holds state tok.top.current tok.top.objFieldName) : Good (tok.await state) :=
  h.of_same rfl rfl ⟨hawaited, hholds⟩ (by simp [Adding, Tokener.await])

lemma good_complete (h : Good tok) (hclean : Clean v) (hnesting : nesting v = 0) :
    Good (tok.complete v) :=
  h.of_value rfl hclean hnesting ⟨.inr (.inl rfl), trivial⟩
    (by simp [Adding, Tokener.complete, Tokener.await])

@[simp] lemma looks_complete (tok : Tokener δ) (v : JsonObject δ) (c : Char) :
    looks (tok.complete v) c = 5 := rfl

/-- A value is complete before this character. -/
lemma redo_complete_good (h : Good tok') (hlooks : looks tok c = 6) (hclean : Clean v)
    (hnesting : nesting v = 0) : LookGood tok c (.redo (tok'.complete v)) := by
  refine ⟨good_complete h hclean hnesting, ?_⟩
  rw [hlooks, looks_complete]
  exact Nat.lt_succ_self 5

lemma lookStart_good (h : Good tok) (hs : tok.top.state = .start) (c : Char) :
    LookGood tok c (lookStart tok c) := by
  have hlooks : looks tok c = 2 := by simp [looks, hs, looksIn]
  rw [lookStart]
  split_ifs with h₁ h₂ h₃ h₄ h₅ h₆
  · exact h.of_value rfl (.object (by simp) List.nodup_nil (by simp)) rfl
      ⟨by simp [Awaited, Tokener.await], [], rfl⟩ (by simp [Adding, Tokener.await])
  · exact h.of_value rfl (.array (by simp)) rfl ⟨by simp [Awaited, Tokener.await], [], rfl⟩
      (by simp [Adding, Tokener.await])
  · refine ⟨h.of_same rfl rfl trivial (by simp [Adding, Tokener.goto]), ?_⟩
    rw [hlooks]
    simp [looks, looksIn, Tokener.goto]
  · exact h.of_same rfl rfl trivial (by simp [Adding, Tokener.goto])
  · refine ⟨h.of_same rfl rfl trivial (by simp [Adding, Tokener.goto]), ?_⟩
    rw [hlooks]
    simp [looks, looksIn, Tokener.goto]
  · refine ⟨h.of_same rfl rfl trivial (by simp [Adding, Tokener.goto]), ?_⟩
    rw [hlooks]
    simp [looks, looksIn, Tokener.goto, mem_jsonNumberChars h₆]
  · trivial

lemma lookFinish_good (h : Good tok) (hs : tok.top.state = .finish) (c : Char) :
    LookGood tok c (lookFinish tok) := by
  have hlooks : looks tok c = 4 := by simp [looks, hs, looksIn]
  have hcurrent := h.current
  have hbelow := h.below
  rw [lookFinish]
  rw [Tokener.depth] at hcurrent
  cases hb : tok.below with
  | nil =>
    rw [hb] at hcurrent
    exact hcurrent
  | cons level below =>
    rw [hb] at hcurrent hbelow
    obtain ⟨hadding, hholds, hfits, hbelow⟩ := hbelow
    refine ⟨⟨?_, hfits, hbelow, fun _ => hcurrent⟩, ?_⟩
    · rcases hadding with hstate | hstate <;>
        simpa only [Expects, hstate] using hstate ▸ hholds
    · rw [hlooks]
      rcases hadding with hstate | hstate <;> simp [looks, hstate, looksIn]

lemma lookNull_good (h : Good tok) (hs : tok.top.state = .null) (c : Char) :
    LookGood tok c (lookNull tok c) := by
  have hadding : ¬Adding tok.top.state := by simp [Adding, hs]
  rw [lookNull]
  split_ifs with hprefix hpos
  · have hpos : tok.stPos = 4 := hpos
    exact redo_complete_good (h.of_top rfl rfl hadding) (by simp [looks, hs, looksIn, hpos])
      .null rfl
  · exact h.of_top rfl rfl hadding
  · trivial

lemma lookBoolean_good (h : Good tok) (hs : tok.top.state = .boolean) (c : Char) :
    LookGood tok c (lookBoolean tok c) := by
  have hadding : ¬Adding tok.top.state := by simp [Adding, hs]
  rw [lookBoolean]
  split_ifs with htrue hpos hfalse hpos
  · have hpos : tok.stPos = 4 := hpos
    exact redo_complete_good (h.of_top rfl rfl hadding) (by simp [looks, hs, looksIn, hpos])
      (.boolean true) rfl
  · exact h.of_top rfl rfl hadding
  · have hpos : tok.stPos = 5 := hpos
    exact redo_complete_good (h.of_top rfl rfl hadding) (by simp [looks, hs, looksIn, hpos])
      (.boolean false) rfl
  · exact h.of_top rfl rfl hadding
  · trivial

lemma lookNumber_good (h : Good tok) (hs : tok.top.state = .number) (c : Char) :
    LookGood tok c (lookNumber d tok c) := by
  have hlooks (hc : c ∉ jsonNumberChars) : looks tok c = 6 := by simp [looks, hs, looksIn, hc]
  rw [lookNumber]
  split_ifs with hc hdouble
  · exact h.of_top rfl rfl (by simp [Adding, hs])
  · cases d.scan (cString tok.pb) with
    | none => trivial
    | some x => exact redo_complete_good h (hlooks hc) (.double x) rfl
  · cases sscanfInt (cString tok.pb) with
    | none => trivial
    | some i => exact redo_complete_good h (hlooks hc) (.int i) rfl

/-- Behind an escape the string or the name goes on. -/
lemma good_goto_savedState (h : Good tok)
    (hs : tok.top.state = .stringEscape ∨ tok.top.state = .escapeUnicode)
    (hbelow : tok'.below = tok.below) (htop : tok'.top = tok.top) :
    Good (tok'.goto tok.top.savedState) := by
  have hexpects : (tok.top.savedState = .string ∨ tok.top.savedState = .objectField) ∧
      Holds tok.top.savedState tok.top.current tok.top.objFieldName := by
    have hexpects := h.expects
    rcases hs with hs | hs <;> simpa only [Expects, hs] using hexpects
  have hcurrent : (tok'.goto tok.top.savedState).top.current = tok.top.current := by
    rw [← htop]
    rfl
  refine h.of_same hbelow hcurrent ?_ ?_
  · rcases hexpects with ⟨hsaved | hsaved, hholds⟩ <;> rw [hsaved] at hholds ⊢
    · trivial
    · rw [← htop] at hholds
      exact hholds
  · rcases hexpects.1 with hsaved | hsaved <;> simp [Adding, Tokener.goto, hsaved]

lemma lookStringEscape_good (h : Good tok) (hs : tok.top.state = .stringEscape) (c : Char) :
    LookGood tok c (lookStringEscape tok c) := by
  have hexpects : Expects tok.top := h.expects
  simp only [Expects, hs] at hexpects
  rw [lookStringEscape]
  split_ifs
  any_goals exact good_goto_savedState h (.inl hs) rfl rfl
  · exact h.of_same rfl rfl hexpects (by simp [Adding, Tokener.goto])
  · trivial

lemma lookEscapeUnicode_good (h : Good tok) (hs : tok.top.state = .escapeUnicode) (c : Char) :
    LookGood tok c (lookEscapeUnicode tok c) := by
  rw [lookEscapeUnicode]
  split_ifs with hhex
  · simp only
    split_ifs with hpos
    · exact good_goto_savedState h (.inr hs) rfl rfl
    · exact h.of_top rfl rfl (by simp [Adding, hs])
  · trivial

/-- A level for a value. -/
lemma push_good {state : TokenerState} (h : Good tok) (hadding : Adding state)
    (hholds : Holds state tok.top.current tok.top.objFieldName) (hlooks : looks tok c = 4) :
    LookGood tok c (push tok state) := by
  rw [push]
  split_ifs with hdepth
  · trivial
  · refine ⟨⟨⟨.inl rfl, trivial⟩, ⟨.null, ?_⟩, ⟨hadding, hholds, h.current, h.below⟩,
      fun hs => absurd hs (by simp [Adding, Srec.reset])⟩, ?_⟩
    · have hnesting : nesting (JsonObject.null : JsonObject δ) = 0 := rfl
      change nesting (JsonObject.null : JsonObject δ) + (tok.depth + 1) < _
      rw [hnesting]
      omega
    · rw [hlooks]
      simp [looks, looksIn, Srec.reset]

lemma elementNesting_append (elements : List (JsonObject δ)) (v : JsonObject δ) :
    elementNesting (elements ++ [v]) = max (elementNesting elements) (nesting v + 1) := by
  induction elements with
  | nil => simp [elementNesting]
  | cons e elements ih => rw [List.cons_append, elementNesting, ih, elementNesting, max_assoc]

lemma memberNesting_append (members : List (List Char × JsonObject δ)) (key : List Char)
    (v : JsonObject δ) :
    memberNesting (members ++ [(key, v)]) = max (memberNesting members) (nesting v + 1) := by
  induction members with
  | nil => simp [memberNesting]
  | cons m members ih =>
    obtain ⟨key', v'⟩ := m
    rw [List.cons_append, memberNesting, ih, memberNesting, max_assoc]

lemma memberNesting_filter_le (p : List Char × JsonObject δ → Bool)
    (members : List (List Char × JsonObject δ)) :
    memberNesting (members.filter p) ≤ memberNesting members := by
  induction members with
  | nil => exact le_refl _
  | cons m members ih =>
    obtain ⟨key, v⟩ := m
    rw [List.filter_cons]
    split_ifs
    · exact max_le_max_left _ ih
    · exact ih.trans (le_max_right _ _)

lemma lookArrayAdd_good (h : Good tok) (hs : tok.top.state = .arrayAdd) (c : Char) :
    LookGood tok c (lookArrayAdd tok) := by
  have hexpects : Expects tok.top := h.expects
  simp only [Expects, hs] at hexpects
  obtain ⟨elements, hcurrent⟩ := hexpects
  have hobj := h.obj (.inl hs)
  have hfits := h.current
  rw [hcurrent] at hfits
  rw [lookArrayAdd, hcurrent]
  refine ⟨⟨⟨by simp [Awaited, Tokener.await], _, rfl⟩, ⟨.array ?_, ?_⟩, h.below, fun hs => ?_⟩, ?_⟩
  · intro v hv
    cases hfits.clean with
    | array hvalues =>
      rcases List.mem_append.mp hv with hv | hv
      · exact hvalues v hv
      · exact List.mem_singleton.mp hv ▸ hobj.clean
  · have hnesting := hfits.nesting
    have hnesting' := hobj.nesting
    change elementNesting (elements ++ [tok.obj]) + tok.depth < _
    rw [nesting] at hnesting
    rw [elementNesting_append]
    omega
  · exact absurd hs (by simp [Adding, Tokener.await])
  · simp [looks, hs, looksIn, Tokener.await]

lemma lookObjectValueAdd_good (h : Good tok) (hs : tok.top.state = .objectValueAdd) (c : Char) :
    LookGood tok c (lookObjectValueAdd tok) := by
  have hexpects : Expects tok.top := h.expects
  simp only [Expects, hs] at hexpects
  obtain ⟨⟨members, hcurrent⟩, key, hkey, hname⟩ := hexpects
  have hobj := h.obj (.inr hs)
  have hfits := h.current
  rw [hcurrent] at hfits
  rw [lookObjectValueAdd, hcurrent, hname]
  refine ⟨⟨⟨by simp [Awaited, Tokener.await], _, rfl⟩, ⟨?_, ?_⟩, h.below, fun hs => ?_⟩, ?_⟩
  · cases hfits.clean with
    | object hkeys hnodup hvalues =>
      have hfilter : ∀ m ∈ members.filter (fun m => m.1 ≠ key), m ∈ members :=
        fun m hm => (List.mem_filter.mp hm).1
      refine .object (fun m hm => ?_) ?_ fun m hm => ?_
      · rcases List.mem_append.mp hm with hm | hm
        · exact hkeys m (hfilter m hm)
        · exact List.mem_singleton.mp hm ▸ hkey
      · rw [addMember, List.map_append, List.nodup_append]
        refine ⟨(List.filter_sublist.map _).nodup hnodup, by simp, ?_⟩
        rintro k hk k' hk' rfl
        obtain ⟨m, hm, hmk⟩ := List.mem_map.mp hk
        refine absurd (hmk.trans (List.mem_singleton.mp hk')) ?_
        simpa using (List.mem_filter.mp hm).2
      · rcases List.mem_append.mp hm with hm | hm
        · exact hvalues m (hfilter m hm)
        · exact List.mem_singleton.mp hm ▸ hobj.clean
  · have hnesting := hfits.nesting
    have hnesting' := hobj.nesting
    change memberNesting (addMember members key tok.obj) + tok.depth < _
    rw [nesting] at hnesting
    rw [addMember, memberNesting_append]
    have hle := memberNesting_filter_le (fun m => m.1 ≠ key) members
    omega
  · exact absurd hs (by simp [Adding, Tokener.await])
  · simp [looks, hs, looksIn, Tokener.await]

/-- White space and comments. -/
lemma look_eatws_good (h : Good tok) (hs : tok.top.state = .eatws) (c : Char) :
    LookGood tok c (look d tok c) := by
  have hexpects : Expects tok.top := h.expects
  simp only [Expects, hs] at hexpects
  obtain ⟨hawaited, hholds⟩ := hexpects
  simp only [look, hs]
  split_ifs
  · exact h
  · exact h.of_same rfl rfl ⟨hawaited, hholds⟩ (by simp [Adding, Tokener.goto])
  · obtain ⟨hexpects, hadding⟩ := expects_of_awaited (tok.goto tok.top.savedState).top
      hawaited hholds
    refine ⟨h.of_same rfl rfl hexpects hadding, ?_⟩
    have hne : tok.top.savedState ≠ .eatws := by
      rcases hawaited with hs | hs | hs | hs | hs | hs | hs | hs <;> simp [hs]
    have hlooks : looks tok c = looksIn tok c tok.top.savedState + 1 := by rw [looks, if_pos hs]
    have hlooks' : looks (tok.goto tok.top.savedState) c = looksIn tok c tok.top.savedState := by
      rw [looks, if_neg (by simpa [Tokener.goto] using hne)]
      rfl
    rw [hlooks, hlooks']
    exact Nat.lt_succ_self _

/-- A comment goes on, or what was waited for does. -/
lemma look_comment_good (h : Good tok) (hs : tok.top.state = .commentStart ∨
    tok.top.state = .comment ∨ tok.top.state = .commentEol ∨ tok.top.state = .commentEnd)
    (c : Char) : LookGood tok c (look d tok c) := by
  have hexpects : Awaited tok.top.savedState ∧
      Holds tok.top.savedState tok.top.current tok.top.objFieldName := by
    have hexpects := h.expects
    rcases hs with hs | hs | hs | hs <;> simpa only [Expects, hs] using hexpects
  have hgoto {state : TokenerState} {buf : List Char} (hstate : state = .eatws ∨
      state = .comment ∨ state = .commentEol ∨ state = .commentEnd) :
      Good { tok.goto state with pb := buf } := by
    refine h.of_same rfl rfl ?_ ?_
    · rcases hstate with rfl | rfl | rfl | rfl <;> exact hexpects
    · rcases hstate with rfl | rfl | rfl | rfl <;> simp [Adding, Tokener.goto]
  have hstay : Good (tok.append [c]) := by
    refine h.of_top rfl rfl ?_
    rcases hs with hs | hs | hs | hs <;> simp [Adding, hs]
  rcases hs with hs | hs | hs | hs <;> simp only [look, hs]
  · split_ifs
    · exact hgoto (.inr (.inl rfl))
    · exact hgoto (.inr (.inr (.inl rfl)))
    · trivial
  · split_ifs
    · exact hgoto (.inr (.inr (.inr rfl)))
    · exact hstay
  · split_ifs
    · exact hgoto (.inl rfl)
    · exact hstay
  · split_ifs
    · exact hgoto (.inl rfl)
    · exact hgoto (.inr (.inl rfl))

lemma nul_not_mem_cString (buf : List Char) : nul ∉ cString buf := fun h => by
  have hne := List.mem_takeWhile_imp h
  simp at hne

/-- **One look** keeps the invariant, and the looks at a character come to an end. -/
theorem look_good (d : Doubles δ) (h : Good tok) (c : Char) : LookGood tok c (look d tok c) := by
  have hexpects : Expects tok.top := h.expects
  cases hs : tok.top.state with
  | eatws => exact look_eatws_good h hs c
  | start =>
    simp only [look, hs]
    exact lookStart_good h hs c
  | finish =>
    simp only [look, hs]
    exact lookFinish_good h hs c
  | null =>
    simp only [look, hs]
    exact lookNull_good h hs c
  | commentStart => exact look_comment_good h (.inl hs) c
  | comment => exact look_comment_good h (.inr (.inl hs)) c
  | commentEol => exact look_comment_good h (.inr (.inr (.inl hs))) c
  | commentEnd => exact look_comment_good h (.inr (.inr (.inr hs))) c
  | string =>
    simp only [look, hs]
    split_ifs
    · exact good_complete h (.string (nul_not_mem_cString _)) rfl
    · exact h.of_same rfl rfl ⟨.inl rfl, trivial⟩ (by simp [Adding])
    · exact h.of_top rfl rfl (by simp [Adding, hs])
  | stringEscape =>
    simp only [look, hs]
    exact lookStringEscape_good h hs c
  | escapeUnicode =>
    simp only [look, hs]
    exact lookEscapeUnicode_good h hs c
  | boolean =>
    simp only [look, hs]
    exact lookBoolean_good h hs c
  | number =>
    simp only [look, hs]
    exact lookNumber_good h hs c
  | array =>
    simp only [Expects, hs] at hexpects
    simp only [look, hs]
    split_ifs
    · exact good_await h (by simp [Awaited]) trivial
    · exact push_good h (.inl rfl) hexpects (by simp [looks, hs, looksIn])
  | arrayAdd =>
    simp only [look, hs]
    exact lookArrayAdd_good h hs c
  | arraySep =>
    simp only [Expects, hs] at hexpects
    simp only [look, hs]
    split_ifs
    · exact good_await h (by simp [Awaited]) trivial
    · exact good_await h (by simp [Awaited]) hexpects
    · trivial
  | objectFieldStart =>
    simp only [Expects, hs] at hexpects
    simp only [look, hs]
    split_ifs
    · exact good_await h (by simp [Awaited]) trivial
    · exact h.of_same rfl rfl hexpects (by simp [Adding, Tokener.goto])
    · trivial
  | objectField =>
    simp only [Expects, hs] at hexpects
    simp only [look, hs]
    split_ifs
    · exact h.of_same rfl rfl ⟨by simp [Awaited, Tokener.await],
        hexpects, _, nul_not_mem_cString _, rfl⟩ (by simp [Adding, Tokener.await])
    · exact h.of_same rfl rfl ⟨.inr rfl, hexpects⟩ (by simp [Adding])
    · exact h.of_top rfl rfl (by simp [Adding, hs])
  | objectFieldEnd =>
    simp only [Expects, hs] at hexpects
    simp only [look, hs]
    split_ifs
    · exact good_await h (by simp [Awaited]) hexpects
    · trivial
  | objectValue =>
    simp only [Expects, hs] at hexpects
    simp only [look, hs]
    exact push_good h (.inr rfl) hexpects (by simp [looks, hs, looksIn])
  | objectValueAdd =>
    simp only [look, hs]
    exact lookObjectValueAdd_good h hs c
  | objectSep =>
    simp only [Expects, hs] at hexpects
    simp only [look, hs]
    split_ifs
    · exact good_await h (by simp [Awaited]) trivial
    · exact good_await h (by simp [Awaited]) hexpects
    · trivial

/-! ## Characters and texts -/

/-- The characters are read, or the parser ends. -/
def OutcomeGood : Outcome δ → Prop
  | .more tok => Good tok
  | .out tok none => Fits 0 tok.top.current
  | .out _ (some _) => True
  | .fault => False
  | .stuck => False

lemma looksIn_bounds (tok : Tokener δ) (c : Char) (s : TokenerState) :
    0 < looksIn tok c s ∧ looksIn tok c s ≤ looksPerChar := by
  cases s <;> simp only [looksIn, looksPerChar] <;> (try split_ifs) <;> decide

lemma parseChar_of_looks (d : Doubles δ) (c : Char) (n : ℕ) (h : Good tok) (hn : looks tok c ≤ n)
    (hpos : 0 < n) : OutcomeGood (parseChar d n tok c) := by
  induction n generalizing tok with
  | zero => exact absurd hpos (lt_irrefl 0)
  | succ n ih =>
    have hlook := look_good d h c
    rw [parseChar]
    cases hl : look d tok c with
    | next tok' =>
      rw [hl] at hlook
      exact hlook
    | redo tok' =>
      rw [hl] at hlook
      obtain ⟨hgood, hlt⟩ := hlook
      refine ih hgood (by omega) ?_
      have hpos' : 0 < looks tok' c := by
        rw [looks]
        split_ifs
        · exact Nat.succ_pos _
        · exact (looksIn_bounds tok' c _).1
      omega
    | out tok' err =>
      rw [hl] at hlook
      cases err with
      | none => exact hlook
      | some err => trivial
    | fault =>
      rw [hl] at hlook
      exact hlook

lemma looks_le (h : Good tok) (c : Char) : looks tok c ≤ looksPerChar := by
  have hexpects : Expects tok.top := h.expects
  rw [looks]
  split_ifs with hs
  · simp only [Expects, hs] at hexpects
    rcases hexpects.1 with hs | hs | hs | hs | hs | hs | hs | hs <;>
      simp [hs, looksIn, looksPerChar]
  · exact (looksIn_bounds tok c _).2

/-- **A character** takes no more than `looksPerChar` looks. -/
theorem parseChar_good (d : Doubles δ) (h : Good tok) (c : Char) :
    OutcomeGood (parseChar d looksPerChar tok c) :=
  parseChar_of_looks d c looksPerChar h (looks_le h c) (by decide)

theorem parseChars_good (d : Doubles δ) (str : List Char) (h : Good tok) :
    OutcomeGood (parseChars d tok str) := by
  induction str generalizing tok with
  | nil => exact h
  | cons c str ih =>
    have hchar := parseChar_good d h c
    rw [parseChars]
    cases ho : parseChar d looksPerChar tok c with
    | more tok' =>
      rw [ho] at hchar
      exact ih hchar
    | _ =>
      rw [ho] at hchar
      exact hchar

/-- A text is parsed or refused from where the parser is. -/
lemma jsonTokenerParseEx_good (d : Doubles δ) (h : Good tok) (str : List Char) :
    (∃ v, jsonTokenerParseEx d tok str = .ok v ∧ Fits 0 v) ∨
      ∃ err, jsonTokenerParseEx d tok str = .error (.err err) := by
  have hgood := parseChars_good d (str ++ [nul]) h
  rw [jsonTokenerParseEx]
  cases ho : parseChars d tok (str ++ [nul]) with
  | more tok' =>
    rw [ho] at hgood
    dsimp only
    split_ifs
    · exact .inr ⟨_, rfl⟩
    · refine .inl ⟨_, rfl, hgood.current.clean, ?_⟩
      exact Nat.lt_of_le_of_lt (Nat.add_le_add_left (Nat.zero_le _) _) hgood.current.nesting
  | out tok' err =>
    rw [ho] at hgood
    cases err with
    | none => exact .inl ⟨_, rfl, hgood⟩
    | some err => exact .inr ⟨err, rfl⟩
  | _ =>
    rw [ho] at hgood
    exact hgood.elim

/-- **Every text is parsed or refused**; what it is parsed to is clean and not nested too deeply. -/
theorem jsonTokenerParse_good (d : Doubles δ) (str : List Char) :
    (∃ v, jsonTokenerParse d str = .ok v ∧ Clean v ∧ nesting v < jsonTokenerMaxDepth) ∨
      ∃ err, jsonTokenerParse d str = .error (.err err) := by
  rcases jsonTokenerParseEx_good d good_new str with ⟨v, hv, hfits⟩ | herr
  · exact .inl ⟨v, hv, hfits.clean, hfits.nesting⟩
  · exact .inr herr

end FreeswitchContrib.JsonC

import FreeswitchContrib.Library.CString
import FreeswitchContrib.Library.Search
import FreeswitchContrib.Library.Template
import FreeswitchContrib.Library.Updating
import FreeswitchContrib.XmlCdrd.FormFields
import Mathlib.Data.List.Find
import Mathlib.Logic.Function.Basic

/-!
# Statement expansion

`stmtexp_expand_str` of `xmlcdrd` puts the values of variables into a template, in which a variable
stands as `$<name>`.  The name is copied into a buffer of 512 characters, and looked up by its first
510 characters; those are also what `stmtexpldr_load_config` keeps of the name of a variable.

* `expandStr_eq`: where the names fit in the buffer, the template is expanded marker by marker.
* `expandsByName_iff`: when each marker gives the variable of its name.
-/

namespace FreeswitchContrib.XmlCdrd

open CString (nul)

/-! ## The table -/

/-- `ght`, by the key; a value may be `NULL`. -/
abbrev Table := Text → Option (Option Text)

/-- What `snprintf` leaves of a name in `stmt_var`. -/
def stmtVar (varid : Text) : Text := varid.take 510

/-- A variable of the configuration, and what it is in the current CDR. -/
structure Variable where
  var_id : Text
  val : Option Text

/-- The table that is loaded from the configuration, with the values of the current CDR. -/
def stmtexpldrLoadConfig (vars : List Variable) : Table :=
  vars.foldl (fun ght var => Function.update ght (stmtVar var.var_id) (some var.val)) fun _ => none

def stmtexpLookupVar (vex : Table) (varid : Text) : Option Text := (vex (stmtVar varid)).join

/-! ## `stmtexp_expand_str` -/

/-- The string in `varid` when the name was copied; `none` if it does not fit, or has no NUL. -/
def copyVarid (name : Text) : Option Text :=
  if name.length ≤ 512 then CString.string (name ++ List.replicate (512 - name.length) nul) 0
  else none

/-- The loop, from the position `s` of `src`.  `none` when it reads or writes outside of `varid`. -/
def expandLoop (vex : Table) (src : Text) (srclen s : ℕ) (expanded : Text) : Option Text :=
  if s < srclen then
    match strstr (src.drop s) ['$', '<'] with
    | none => some (expanded ++ src.drop s)
    | some e =>
      let expanded := expanded ++ (src.drop s).take e
      let s' := s + e
      match strstr (src.drop s') ['>'] with
      | none => some (expanded ++ src.drop s')
      | some e =>
        match copyVarid ((src.drop (s' + 2)).take (e - 2)) with
        | none => none
        | some varid =>
          let expanded := expanded ++ (stmtexpLookupVar vex varid).getD []
          expandLoop vex src srclen (s' + e + 1) expanded
  else some expanded
termination_by srclen - s
decreasing_by omega

def stmtexpExpandStr (vex : Table) (src : Text) (srclen : ℕ) : Option Text :=
  expandLoop vex src srclen 0 []

/-! ## What the expansion is for -/

def varNames (template : Text) : List Text := Template.names '$' '<' '>' template

/-- Each variable by its value, or nothing. -/
def expansion (value : Text → Option Text) (template : Text) : Text :=
  Template.expand '$' '<' '>' (fun name => (value name).getD []) template

/-- The value of the variable that has this name; the last one, if the configuration has more. -/
def valueOf (vars : List Variable) (name : Text) : Option Text :=
  (vars.reverse.find? fun var => var.var_id = name).bind Variable.val

/-- The variable of the table that the name is resolved to, by its key. -/
def resolve (vex : Table) (name : Text) : Option Text :=
  (vex (stmtVar name)).map fun _ => stmtVar name

/-- The names of the template, and those of the variables. -/
def allNames (vars : List Variable) (template : Text) : List Text :=
  varNames template ++ vars.map Variable.var_id

/-- The result is the expansion by names, with the buffer intact, and names that differ are not
resolved to the same variable. -/
structure ExpandsByName (vars : List Variable) (template : Text) (result : Option Text) : Prop where
  expanded : result = some (expansion (valueOf vars) template)
  distinct : ∀ n ∈ allNames vars template, ∀ m ∈ allNames vars template, n ≠ m →
    ∀ key, resolve (stmtexpldrLoadConfig vars) n = some key →
      resolve (stmtexpldrLoadConfig vars) m ≠ some key

variable {vex : Table} {vars : List Variable} {template name src expanded : Text} {s srclen : ℕ}

/-! ## The loop -/

lemma copyVarid_eq (hnul : nul ∉ name) :
    copyVarid name = if name.length ≤ 511 then some name else none := by
  rw [copyVarid]
  split_ifs with hfits hshort hshort
  · have hpad : List.replicate (512 - name.length) nul =
        nul :: List.replicate (511 - name.length) nul := by
      rw [show 512 - name.length = 511 - name.length + 1 by omega, List.replicate_succ]
    rw [hpad]
    exact CString.string_append [] _ hnul
  · have hfull : 512 - name.length = 0 := by omega
    rw [hfull, List.replicate_zero, List.append_nil, CString.string,
      CString.find_nul_eq_none (by simpa using hnul)]
    rfl
  · omega
  · rfl

/-- What a turn of the loop finds: no marker, a marker that is not closed, or a name. -/
inductive Turn (rest : Text) : Prop
  | text (hnone : strstr rest ['$', '<'] = none) (htext : ¬ ['$', '<'] <:+: rest)
  | unclosed (before body : Text) (hrest : rest = before ++ '$' :: '<' :: body)
      (hsome : strstr rest ['$', '<'] = some before.length) (hbefore : ¬ ['$', '<'] <:+: before)
      (hnone : strstr ('$' :: '<' :: body) ['>'] = none) (hbody : '>' ∉ body)
  | marker (before name after : Text)
      (hrest : rest = before ++ '$' :: '<' :: (name ++ '>' :: after))
      (hsome : strstr rest ['$', '<'] = some before.length) (hbefore : ¬ ['$', '<'] <:+: before)
      (hend : strstr ('$' :: '<' :: (name ++ '>' :: after)) ['>'] = some (name.length + 2))
      (hname : '>' ∉ name)

lemma strstr_close (body : Text) :
    strstr ('$' :: '<' :: body) ['>'] = (strstr body ['>']).map (2 + ·) := by
  have hskip : ∀ s, s <:+ ['$', '<'] → s ≠ [] → ¬ ['>'] <+: s ++ body := by
    intro s hs hne hp
    rcases s with _ | ⟨c, s⟩
    · exact hne rfl
    · obtain rfl : '>' = c := (List.cons_prefix_cons.mp hp).1
      exact absurd (hs.subset List.mem_cons_self) (by decide)
  exact Search.indexOf_skip hskip

lemma turn (rest : Text) : Turn rest := by
  have hsingle : ∀ s : Text, ['>'] <:+: s ↔ '>' ∈ s := List.singleton_infix_iff '>'
  cases hstart : strstr rest ['$', '<'] with
  | none => exact .text hstart (Search.indexOf_eq_none_iff.mp hstart)
  | some e =>
    obtain ⟨before, body, hrest, rfl, hbefore⟩ := Search.indexOf_split (by decide) hstart
    have hclose := strstr_close body
    cases hend : strstr body ['>'] with
    | none =>
      rw [hend] at hclose
      exact .unclosed before body hrest hstart hbefore hclose
        (mt (hsingle body).mpr (Search.indexOf_eq_none_iff.mp hend))
    | some e =>
      obtain ⟨name, after, rfl, rfl, hname⟩ := Search.indexOf_split (by decide) hend
      rw [hend, Option.map_some, Nat.add_comm] at hclose
      exact .marker before name after hrest hstart hbefore hclose (mt (hsingle name).mpr hname)

/-- The expansion of what a turn finds. -/
lemma expansion_unclosed {before body : Text} (value : Text → Option Text)
    (hbefore : ¬ ['$', '<'] <:+: before) (hbody : '>' ∉ body) :
    expansion value (before ++ '$' :: '<' :: body) = before ++ '$' :: '<' :: body ∧
      varNames (before ++ '$' :: '<' :: body) = [] := by
  have hfirst := Template.expand_append '>' (fun name => (value name).getD [])
    (show '$' ≠ '<' by decide) hbefore body
  have hlast := Template.expand_unclosed '$' '<' (fun name => (value name).getD []) hbody
  exact ⟨hfirst.1.trans (congrArg (before ++ ·) hlast.1), hfirst.2.trans hlast.2⟩

lemma expansion_marker {before name : Text} (value : Text → Option Text)
    (hbefore : ¬ ['$', '<'] <:+: before) (hname : '>' ∉ name) (after : Text) :
    expansion value (before ++ '$' :: '<' :: (name ++ '>' :: after)) =
        before ++ ((value name).getD [] ++ expansion value after) ∧
      varNames (before ++ '$' :: '<' :: (name ++ '>' :: after)) = name :: varNames after := by
  have hfirst := Template.expand_append '>' (fun name => (value name).getD [])
    (show '$' ≠ '<' by decide) hbefore (name ++ '>' :: after)
  have hmarker := Template.expand_marker '$' '<' (fun name => (value name).getD []) hname
    after
  exact ⟨hfirst.1.trans (congrArg (before ++ ·) hmarker.1), hfirst.2.trans hmarker.2⟩

/-- What is left of the template is expanded behind what was expanded. -/
theorem expandLoop_eq (vex : Table) (src : Text) (hnul : nul ∉ src) (s : ℕ) (expanded : Text) :
    expandLoop vex src src.length s expanded =
      if ∀ name ∈ varNames (src.drop s), name.length ≤ 511 then
        some (expanded ++ expansion (stmtexpLookupVar vex) (src.drop s))
      else none := by
  rw [expandLoop]
  by_cases hs : s < src.length
  · rw [if_pos hs]
    rcases turn (src.drop s) with ⟨hnone, htext⟩ |
      ⟨before, body, hrest, hsome, hbefore, hnone, hbody⟩ |
      ⟨before, name, after, hrest, hsome, hbefore, hend, hname⟩
    · have hexpand := Template.expand_text '>' (fun name => (stmtexpLookupVar vex name).getD [])
        htext
      rw [hnone, varNames, hexpand.2, if_pos (fun _ h => absurd h List.not_mem_nil), expansion,
        hexpand.1]
    · have hdrop : src.drop (s + before.length) = '$' :: '<' :: body := by
        rw [← List.drop_drop, hrest, List.drop_left]
      obtain ⟨hexpand, hnames⟩ := expansion_unclosed (stmtexpLookupVar vex) hbefore hbody
      rw [hsome]
      simp only [hdrop, hnone]
      rw [hrest, hexpand, hnames, if_pos (fun _ h => absurd h List.not_mem_nil), List.take_left,
        List.append_assoc]
    · have hdrop : src.drop (s + before.length) = '$' :: '<' :: (name ++ '>' :: after) := by
        rw [← List.drop_drop, hrest, List.drop_left]
      have hdrop' : src.drop (s + before.length + 2) = name ++ '>' :: after := by
        rw [← List.drop_drop, hdrop]
        rfl
      have hafter : src.drop (s + before.length + (name.length + 2) + 1) = after := by
        rw [show s + before.length + (name.length + 2) + 1 =
          s + before.length + 2 + (name.length + 1) by omega, ← List.drop_drop, hdrop',
          ← List.drop_drop, List.drop_left]
        rfl
      have hnul' : nul ∉ name := fun hmem =>
        hnul (List.mem_of_mem_drop (hdrop' ▸ List.mem_append_left _ hmem))
      obtain ⟨hexpand, hnames⟩ := expansion_marker (stmtexpLookupVar vex) hbefore hname
        after
      have ih := expandLoop_eq vex src hnul (s + before.length + (name.length + 2) + 1)
        (expanded ++ before ++ (stmtexpLookupVar vex name).getD [])
      rw [hsome]
      simp only [hdrop, hend, hdrop', Nat.add_sub_cancel, List.take_left, copyVarid_eq hnul']
      rw [hrest, hexpand, hnames, List.take_left]
      simp only [List.forall_mem_cons]
      by_cases hshort : name.length ≤ 511
      · simp only [hshort, if_true, true_and]
        rw [ih, hafter]
        simp only [List.append_assoc]
      · simp only [hshort, false_and, if_false]
  · rw [if_neg hs, List.drop_eq_nil_of_le (Nat.le_of_not_lt hs), if_pos]
    · exact congrArg some (List.append_nil _).symm
    · exact fun _ h => absurd h List.not_mem_nil
termination_by src.length - s
decreasing_by omega

/-- **Where the names fit, the template is expanded.** -/
theorem expandStr_eq (vex : Table) (hnul : nul ∉ template) :
    stmtexpExpandStr vex template template.length =
      if ∀ name ∈ varNames template, name.length ≤ 511 then
        some (expansion (stmtexpLookupVar vex) template)
      else none :=
  expandLoop_eq vex template hnul 0 []

/-! ## Variables -/

/-- The last variable with this key is in the table. -/
lemma loadConfig_eq (vars : List Variable) (key : Text) :
    stmtexpldrLoadConfig vars key =
      (vars.reverse.find? fun var => stmtVar var.var_id = key).map Variable.val := by
  refine (Updating.foldl_update_eq (fun var : Variable => stmtVar var.var_id)
    (fun var => some var.val) vars (fun _ => none) key).trans ?_
  cases vars.reverse.find? fun var => stmtVar var.var_id = key <;> rfl

lemma resolve_eq_some (var : Variable) (hvar : var ∈ vars)
    (hkey : stmtVar name = stmtVar var.var_id) :
    resolve (stmtexpldrLoadConfig vars) name = some (stmtVar var.var_id) := by
  have hfound : (vars.reverse.find? fun v => stmtVar v.var_id = stmtVar name).isSome := by
    rw [List.find?_isSome]
    exact ⟨var, List.mem_reverse.mpr hvar, decide_eq_true hkey.symm⟩
  obtain ⟨v, hv⟩ := Option.isSome_iff_exists.mp hfound
  rw [resolve, loadConfig_eq, hv, Option.map_some, Option.map_some, hkey]

/-- No two different names, of which one is that of a variable, begin with the same 510
characters. -/
def Distinguished (vars : List Variable) (template : Text) : Prop :=
  ∀ n ∈ allNames vars template, ∀ var ∈ vars, n ≠ var.var_id → stmtVar n ≠ stmtVar var.var_id

instance (vars : List Variable) (template : Text) : Decidable (Distinguished vars template) :=
  inferInstanceAs (Decidable (∀ n ∈ allNames vars template, ∀ var ∈ vars, _))

lemma mem_allNames_var {var : Variable} (hvar : var ∈ vars) :
    var.var_id ∈ allNames vars template :=
  List.mem_append_right _ (List.mem_map_of_mem hvar)

/-- Then the variable that is found has the name. -/
lemma lookupVar_eq (h : Distinguished vars template) (hname : name ∈ varNames template) :
    stmtexpLookupVar (stmtexpldrLoadConfig vars) name = valueOf vars name := by
  have hsame : (vars.reverse.find? fun var => stmtVar var.var_id = stmtVar name) =
      vars.reverse.find? fun var => var.var_id = name := by
    refine List.find?_congr fun var hvar => decide_eq_decide.mpr ⟨fun hkey => ?_, congrArg stmtVar⟩
    by_contra hne
    exact h name (List.mem_append_left _ hname) var (List.mem_reverse.mp hvar) (Ne.symm hne)
      hkey.symm
  rw [stmtexpLookupVar, loadConfig_eq, hsame, valueOf]
  cases vars.reverse.find? fun var => var.var_id = name <;> rfl

/-- **When the template is expanded by names.** -/
theorem expandsByName_iff (vars : List Variable) (hnul : nul ∉ template) :
    ExpandsByName vars template
        (stmtexpExpandStr (stmtexpldrLoadConfig vars) template template.length) ↔
      (∀ name ∈ varNames template, name.length ≤ 511) ∧ Distinguished vars template := by
  rw [expandStr_eq _ hnul]
  constructor
  · rintro ⟨hexpanded, hdistinct⟩
    refine ⟨?_, fun n hn var hvar hne hkey => ?_⟩
    · by_contra hlong
      rw [if_neg hlong] at hexpanded
      cases hexpanded
    · exact hdistinct n hn var.var_id (mem_allNames_var hvar) hne _ (resolve_eq_some var hvar hkey)
        (resolve_eq_some var hvar rfl)
  · rintro ⟨hshort, hdistinguished⟩
    refine ⟨?_, fun n hn m hm hne key hresolve hresolve' => ?_⟩
    · rw [if_pos hshort, expansion, expansion]
      refine congrArg some (Template.expand_congr fun name hname => ?_)
      rw [lookupVar_eq hdistinguished hname]
    · obtain ⟨val, hval, hkey⟩ := Option.map_eq_some_iff.mp hresolve
      obtain ⟨-, -, hkey'⟩ := Option.map_eq_some_iff.mp hresolve'
      rw [loadConfig_eq, Option.map_eq_some_iff] at hval
      obtain ⟨var, hfound, -⟩ := hval
      have hvar := List.mem_reverse.mp (List.mem_of_find?_eq_some hfound)
      have hvarkey : stmtVar var.var_id = stmtVar n := by
        simpa using List.find?_some hfound
      have hname : ∀ name ∈ allNames vars template, stmtVar name = key → name = var.var_id := by
        intro name hname heq
        by_contra hother
        exact hdistinguished name hname var hvar hother
          (heq.trans (hkey.symm.trans hvarkey.symm))
      exact hne ((hname n hn hkey).trans (hname m hm hkey').symm)

/-- A call's CDR with the variable `uuid`, and a name that is none. -/
theorem expandsByName_uuid : ExpandsByName [⟨"uuid".toList, some "7".toList⟩]
    "id=$<uuid>, $<x>".toList (stmtexpExpandStr
      (stmtexpldrLoadConfig [⟨"uuid".toList, some "7".toList⟩]) "id=$<uuid>, $<x>".toList 16) :=
  (expandsByName_iff [⟨"uuid".toList, some "7".toList⟩]
    (show nul ∉ "id=$<uuid>, $<x>".toList by decide)).mpr ⟨by decide, by decide⟩

/-- A marker with this name. -/
def marker (name : Text) : Text := '$' :: '<' :: (name ++ ['>'])

/-- A name of 600 characters. -/
theorem not_expandsByName : ¬ ∀ (vars : List Variable) (template : Text), nul ∉ template →
    ExpandsByName vars template
      (stmtexpExpandStr (stmtexpldrLoadConfig vars) template template.length) := by
  intro h
  have hnul : nul ∉ marker (List.replicate 600 'x') := by set_option maxRecDepth 8192 in decide
  have hshort := ((expandsByName_iff [] hnul).mp (h [] _ hnul)).1
  have hnames : varNames (marker (List.replicate 600 'x')) = [List.replicate 600 'x'] :=
    (Template.expand_marker '$' '<' id (show '>' ∉ List.replicate 600 'x' from
      fun h => absurd (List.eq_of_mem_replicate h) (by decide)) []).2
  rw [hnames] at hshort
  have hlength := hshort _ List.mem_cons_self
  rw [List.length_replicate] at hlength
  exact absurd hlength (by decide)

end FreeswitchContrib.XmlCdrd

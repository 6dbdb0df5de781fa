import FreeswitchContrib.Library.CString
import FreeswitchContrib.Library.Runs

/-!
# Merging and tokenizing

The class `Strings` of `mod_khomp`: `merge` joins the strings of a list, and `tokenize` takes a
string apart at the characters of `delims`, into `max_tokens` tokens at most.

* `tokenizeLoop_eq` — what the loop appends are the runs that are left, up to the limit.
* `tokenize_eq_splitOnP` — where the limit is not reached, these are the parts of a split.
* **`tokenize_merge`** — `tokenize` undoes `merge`, and yields the runs of any string.
-/

namespace Khomp

/-! ## The source -/

namespace Strings

/-- The loop of `merge`, behind the first string. -/
def mergeLoop (sep : List Char) : List (List Char) → List Char → List Char
  | [], res => res
  | i :: rest, res => mergeLoop sep rest (res ++ sep ++ i)

/-- `Strings::Merger::merge` for these strings. -/
def merge (list : List (List Char)) (sep : List Char) : List Char :=
  match list with
  | [] => []
  | i :: rest => mergeLoop sep rest i

/-- `find_first_of`, where `none` is `npos`. -/
def findFirstOf (str delims : List Char) (pos : Option ℕ) : Option ℕ :=
  pos.bind (CString.find delims.contains str)

/-- `find_first_not_of` -/
def findFirstNotOf (str delims : List Char) (pos : Option ℕ) : Option ℕ :=
  pos.bind (CString.find (fun c => !delims.contains c) str)

/-- `substr` -/
def substr (str : List Char) (pos count : ℕ) : List Char := (str.drop pos).take count

/-- The position of a token's end moves on: it is that of a delimiter, and there is another
character in between. -/
lemma findFirstOf_measure {str delims : List Char} {f : ℕ} :
    ((findFirstOf str delims (findFirstNotOf str delims (some f))).elim 0
      fun f => str.length - f + 1) < str.length - f + 1 := by
  cases hinit : findFirstNotOf str delims (some f) with
  | none => exact Nat.succ_pos _
  | some i =>
    cases hfini : findFirstOf str delims (some i) with
    | none => exact Nat.succ_pos _
    | some f' =>
      obtain ⟨hfi, c, hc, hnot⟩ := CString.find_some hinit
      obtain ⟨hif', c', hc', hdelim⟩ := CString.find_some hfini
      have hlt := CString.find_lt hfini
      have hne : i ≠ f' := by
        rintro rfl
        obtain rfl : c = c' := Option.some.inj (hc.symm.trans hc')
        rw [hdelim] at hnot
        cases hnot
      show str.length - f' + 1 < str.length - f + 1
      omega

/-- The loop of `tokenize`. -/
def tokenizeLoop (str delims : List Char) (maxTokens : ℤ) (init fini : Option ℕ) (curToken : ℤ)
    (tokens : List (List Char)) : List (List Char) :=
  match init, fini with
  | none, _ => tokens
  | some i, none => tokens ++ [substr str i (str.length - i)]
  | some i, some f =>
    if curToken < maxTokens then
      let init := findFirstNotOf str delims (some f)
      tokenizeLoop str delims maxTokens init (findFirstOf str delims init) (curToken + 1)
        (tokens ++ [substr str i (f - i)])
    else tokens ++ [substr str i (str.length - i)]
  termination_by fini.elim 0 fun f => str.length - f + 1
  decreasing_by exact findFirstOf_measure

/-- `Strings::tokenize`: the tokens are appended to `tokens`. -/
def tokenize (str delims : List Char) (maxTokens : ℤ) (tokens : List (List Char)) :
    List (List Char) :=
  let init := findFirstNotOf str delims (some 0)
  tokenizeLoop str delims maxTokens init (findFirstOf str delims init) 1 tokens

/-! ## Where the tokens are -/

section Loop

variable {str delims : List Char} {p : ℕ} {c : Char} {rest : List Char}

lemma findFirstNotOf_eq_none (h : (str.drop p).dropWhile delims.contains = []) :
    findFirstNotOf str delims (some p) = none :=
  CString.find_eq_none (by simpa only [Bool.not_not] using h)

lemma findFirstNotOf_eq_some (h : (str.drop p).dropWhile delims.contains = c :: rest) :
    ∃ i, findFirstNotOf str delims (some p) = some i ∧ str.drop i = c :: rest ∧
      delims.contains c = false := by
  have hpassed : (str.drop p).dropWhile (fun c => !!delims.contains c) = c :: rest := by
    simpa only [Bool.not_not] using h
  obtain ⟨hfind, hdrop⟩ := CString.find_eq_some (fun c => !delims.contains c) hpassed
  obtain ⟨-, c', hc', hnot⟩ := CString.find_some hfind
  rw [← List.head?_drop, hdrop] at hc'
  obtain rfl : c = c' := Option.some.inj hc'
  exact ⟨_, hfind, hdrop, Bool.not_eq_true' _ ▸ hnot⟩

/-- The search for the end of a token passes its run. -/
lemma findFirstOf_eq_some (h : (str.drop p).dropWhile (fun c => !delims.contains c) = c :: rest) :
    findFirstOf str delims (some p) =
        some (p + (Runs.run delims.contains (str.drop p)).length) ∧
      str.drop (p + (Runs.run delims.contains (str.drop p)).length) = c :: rest :=
  CString.find_eq_some delims.contains h

/-- The rest of the string. -/
lemma substr_rest (i : ℕ) : substr str i (str.length - i) = str.drop i := by
  rw [substr, ← List.length_drop, List.take_length]

lemma substr_run (i : ℕ) :
    substr str i (Runs.run delims.contains (str.drop i)).length =
      Runs.run delims.contains (str.drop i) :=
  (List.prefix_iff_eq_take.1 (List.takeWhile_prefix _)).symm

/-- **The tokens of the loop** are the runs that are left, of which the last allowed one takes the
rest of the string. -/
theorem tokenizeLoop_eq (n p : ℕ) (cur : ℤ) (tokens : List (List Char)) :
    tokenizeLoop str delims (cur + n) (findFirstNotOf str delims (some p))
        (findFirstOf str delims (findFirstNotOf str delims (some p))) cur tokens =
      tokens ++ Runs.upTo delims.contains (n + 1)
        (Runs.starts delims.contains (str.drop p)) := by
  rw [← Runs.starts_dropWhile]
  induction hlength : (str.drop p).length using Nat.strong_induction_on
    generalizing n p cur tokens with
  | _ length ih =>
    subst hlength
    cases hrest : (str.drop p).dropWhile delims.contains with
    | nil =>
      rw [findFirstNotOf_eq_none hrest, tokenizeLoop]
      simp
    | cons c rest =>
      obtain ⟨i, hinit, hi, hc⟩ := findFirstNotOf_eq_some hrest
      rw [hinit, Runs.starts_cons hc, ← hi]
      cases hend : (str.drop i).dropWhile fun c => !delims.contains c with
      | nil =>
        have hfini : findFirstOf str delims (some i) = none := CString.find_eq_none hend
        have hrun : Runs.run delims.contains (str.drop i) = str.drop i := by
          have hwhole := List.takeWhile_append_dropWhile (p := fun c => !delims.contains c)
            (l := str.drop i)
          rwa [hend, List.append_nil] at hwhole
        rw [hfini, tokenizeLoop, substr_rest, Runs.starts_nil]
        cases n with
        | zero => rfl
        | succ n => rw [Runs.upTo_add_two_cons, hrun, Runs.upTo_nil]
      | cons d after =>
        obtain ⟨hfini, hf⟩ := findFirstOf_eq_some hend
        rw [hfini, tokenizeLoop]
        cases n with
        | zero => rw [if_neg (by simp), substr_rest, Runs.upTo_one_cons]
        | succ n =>
          -- the run ends at a delimiter, from where the search goes on
          have hpos : 0 < (Runs.run delims.contains (str.drop i)).length := by
            rw [hi, Runs.run, List.takeWhile_cons_of_pos (by rw [hc]; rfl)]
            exact Nat.succ_pos _
          have hle : (str.drop i).length ≤ (str.drop p).length := by
            rw [hi, ← hrest]
            exact (List.dropWhile_suffix _).length_le
          have hlt : (str.drop (i + (Runs.run delims.contains (str.drop i)).length)).length <
              (str.drop p).length := by
            rw [hi] at hle
            have hone := congrArg List.length hi
            rw [List.length_drop, List.length_cons] at hone
            rw [List.length_cons] at hle
            rw [List.length_drop]
            omega
          have hnext := ih _ hlt n _ (cur + 1)
            (tokens ++ [substr str i ((Runs.run delims.contains (str.drop i)).length)]) rfl
          have hlimit : cur + 1 + (n : ℤ) = cur + (n + 1 : ℕ) := by push_cast; omega
          rw [if_pos (by push_cast; omega), ← hlimit, Nat.add_sub_cancel_left, hnext,
            Runs.starts_dropWhile, hf, Runs.upTo_add_two_cons, List.append_assoc, substr_run]
          rfl

/-- The tokens of a string. -/
theorem tokenize_eq {maxTokens : ℤ} (h : 1 ≤ maxTokens) (str : List Char)
    (tokens : List (List Char)) :
    tokenize str delims maxTokens tokens =
      tokens ++ Runs.upTo delims.contains maxTokens.toNat (Runs.starts delims.contains str) := by
  obtain ⟨n, rfl⟩ : ∃ n : ℕ, maxTokens = 1 + n := ⟨(maxTokens - 1).toNat, by omega⟩
  have hn : ((1 : ℤ) + n).toNat = n + 1 := by omega
  rw [tokenize, tokenizeLoop_eq n 0 1 tokens, List.drop_zero, hn]

/-- With a limit that is not reached, the tokens are what a split leaves that is not empty. -/
theorem tokenize_eq_splitOnP {maxTokens : ℤ}
    (h : (Runs.starts delims.contains str).length < maxTokens) :
    tokenize str delims maxTokens [] =
      (str.splitOnP delims.contains).filter fun part => !part.isEmpty := by
  rw [tokenize_eq (by omega), List.nil_append, Runs.upTo_of_length_lt (by omega),
    Runs.runs_eq_splitOnP]

lemma mergeLoop_eq (sep : List Char) (list : List (List Char)) (res : List Char) :
    mergeLoop sep list res = res ++ list.flatMap (sep ++ ·) := by
  induction list generalizing res with
  | nil => rw [mergeLoop, List.flatMap_nil, List.append_nil]
  | cons s list ih => rw [mergeLoop, ih, List.flatMap_cons, List.append_assoc, List.append_assoc,
      List.append_assoc]

/-- A string without delimiters is a run. -/
lemma isRun {s : List Char} (h : s ≠ [] ∧ ∀ c ∈ s, c ∉ delims) :
    s ≠ [] ∧ ∀ c ∈ s, delims.contains c = false :=
  ⟨h.1, fun c hc => by simpa using h.2 c hc⟩

lemma tokenize_nil (maxTokens : ℤ) : tokenize [] delims maxTokens [] = [] := by
  have hinit : findFirstNotOf [] delims (some 0) = none := findFirstNotOf_eq_none rfl
  rw [tokenize, hinit, tokenizeLoop]

/-- **Tokenizing undoes merging**, and yields the runs of every string. -/
theorem tokenize_merge (delims : List Char) (maxTokens : ℤ) :
    (∀ (list : List (List Char)) (sep : List Char), list.length ≤ maxTokens →
      (∀ s ∈ list, s ≠ [] ∧ ∀ c ∈ s, c ∉ delims) → sep ≠ [] → (∀ c ∈ sep, c ∈ delims) →
        tokenize (merge list sep) delims maxTokens [] = list) ∧
    (1 ≤ maxTokens → ∀ str, tokenize str delims maxTokens [] =
      Runs.upTo delims.contains maxTokens.toNat (Runs.starts delims.contains str)) := by
  refine ⟨fun list sep hlength hlist hne hsep => ?_, fun hmax str => tokenize_eq hmax str []⟩
  cases list with
  | nil => exact tokenize_nil maxTokens
  | cons s list =>
    rw [List.length_cons] at hlength
    rw [tokenize_eq (by omega), List.nil_append, merge, mergeLoop_eq]
    exact Runs.upTo_starts_flatMap hne (fun c hc => by simpa using hsep c hc)
      (isRun (hlist s List.mem_cons_self))
      (fun part hpart => isRun (hlist part (List.mem_cons_of_mem s hpart))) (by omega)

/-- Three strings, and a list that the limit cuts short. -/
theorem tokenize_merge_three :
    tokenize (merge ["b0".toList, "c1".toList, "l2".toList] ", ".toList) ", ".toList 3 [] =
        ["b0".toList, "c1".toList, "l2".toList] ∧
      tokenize ",a,,b c,".toList ", ".toList 2 [] = ["a".toList, "b c,".toList] :=
  ⟨(tokenize_merge ", ".toList 3).1 _ _ (by decide) (by decide) (by decide) (by decide),
    ((tokenize_merge ", ".toList 2).2 (by decide) _).trans (by decide)⟩

end Loop

end Strings

end Khomp

import FreeswitchContrib.Library.Search
import Mathlib.Data.List.Basic

/-!
# The form field of a CDR

`urldecode_expand_value` of `xmlcdrd` searches a request for the encoded key with `=` behind it, and
decodes what follows up to the next `&`.

* `finds_request`: what is found is the end of a key, the first that ends in the key searched for.
* `foundByName_iff`: when this gives the value of the first pair whose key is the one searched for.

`apreq_encode` and `apreq_decode` are not here: a `Codec` is what they are relied upon for.
-/

namespace FreeswitchContrib.XmlCdrd

abbrev Text := List Char

/-- `apreq_encode` and `apreq_decode`: what is encoded can be decoded, is no shorter than it was,
and has no separators. -/
structure Codec where
  apreqEncode : Text → Text
  apreqDecode : Text → Text
  decode_encode : ∀ s, apreqDecode (apreqEncode s) = s
  length_le : ∀ s, s.length ≤ (apreqEncode s).length
  noAmpersand : ∀ s, '&' ∉ apreqEncode s
  noEquals : ∀ s, '=' ∉ apreqEncode s

/-! ## `urldecode_expand_value` -/

inductive Status where
  | invalidParams
  | emptySrchKey
  | srchKeyNotFound
  | urlStrTooShort
  | urlKeyValBroken
  deriving DecidableEq

/-- `strcasestr` -/
def strcasestr (s pattern : Text) : Option ℕ :=
  Search.indexOf (pattern.map Char.toLower) (s.map Char.toLower)

/-- `strstr` -/
def strstr (s pattern : Text) : Option ℕ := Search.indexOf pattern s

/-- A key that is `NULL` is `none`.  The buffer `temp` has place for three characters for each of
the key, and two more. -/
def urldecodeExpandValue (codec : Codec) (url : Text) (key : Option Text) (key_len : ℕ)
    (case_sensative : Bool) : Except Status Text :=
  match key with
  | none => .error .invalidParams
  | some key =>
    if key.length = 0 ∨ key_len = 0 then .error .emptySrchKey
    else if url.length < key_len then .error .urlStrTooShort
    else
      let temp := codec.apreqEncode (key.take key_len) ++ ['=']
      match if case_sensative then strstr url temp else strcasestr url temp with
      | none => .error .srchKeyNotFound
      | some p =>
        match (url.drop p).dropWhile (· ≠ '=') with
        | [] => .error .urlKeyValBroken
        | _ :: value => .ok (codec.apreqDecode (value.takeWhile (· ≠ '&')))

/-! ## Requests -/

def Codec.pair (codec : Codec) (p : Text × Text) : Text :=
  codec.apreqEncode p.1 ++ '=' :: codec.apreqEncode p.2

def Codec.request (codec : Codec) (pairs : List (Text × Text)) : Text :=
  ['&'].intercalate (pairs.map codec.pair)

/-- The value of the first pair with this key, or one of the two statuses that there is none. -/
def FoundByName (pairs : List (Text × Text)) (key : Text) (result : Except Status Text) : Prop :=
  match pairs.find? (fun p => p.1 = key) with
  | some p => result = .ok p.2
  | none => result = .error .srchKeyNotFound ∨ result = .error .urlStrTooShort

/-- The encoded key ends in that of the key searched for. -/
def endsIn (codec : Codec) (key : Text) (p : Text × Text) : Bool :=
  (codec.apreqEncode key).isSuffixOf (codec.apreqEncode p.1)

variable {codec : Codec} {pairs : List (Text × Text)} {p : Text × Text} {key k a b rest : Text}

/-! ## Where the key is found -/

/-- What is in front of the first `=`. -/
lemma takeWhile_equals (hk : '=' ∉ k) (rest : Text) :
    (k ++ '=' :: rest).takeWhile (· ≠ '=') = k := by
  have hall : ∀ c ∈ k, decide (c ≠ '=') = true := by
    intro c hc
    exact decide_eq_true fun heq => hk (heq ▸ hc)
  rw [List.takeWhile_append_of_pos hall, List.takeWhile_cons_of_neg (by decide), List.append_nil]

lemma takeWhile_of_prefix (hk : '=' ∉ k) (h : k ++ ['='] <+: rest) :
    rest.takeWhile (· ≠ '=') = k := by
  obtain ⟨t, rfl⟩ := h
  rw [List.append_assoc]
  exact takeWhile_equals hk t

/-- In a pair whose key does not end in `k`, and up to the next pair, `k=` does not begin. -/
lemma not_prefix_of_pair (hk : '=' ∉ k) (hk' : '&' ∉ k) (hne : k ≠ []) (ha : '=' ∉ a) (hb : '=' ∉ b)
    (hends : ¬ k <:+ a) (hrest : rest = [] ∨ rest.head? = some '&') {s : Text}
    (hs : s <:+ a ++ '=' :: b) : ¬ k ++ ['='] <+: s ++ rest := by
  intro hp
  have htake := takeWhile_of_prefix hk hp
  rcases Search.suffix_append_cases hs with hs | ⟨s', rfl, hs', -⟩
  · rcases List.suffix_cons_iff.mp hs with rfl | hs
    · rw [List.cons_append, List.takeWhile_cons_of_neg (by decide)] at htake
      exact hne htake.symm
    · have hs' : '=' ∉ s := fun hmem => hb (hs.subset hmem)
      rcases hrest with rfl | hhead
      · rw [List.append_nil] at hp
        exact hs' (hp.subset (List.mem_append_right _ List.mem_cons_self))
      · obtain ⟨t, rfl⟩ : ∃ t, rest = '&' :: t := List.head?_eq_some_iff.mp hhead
        have hall : ∀ c ∈ s, decide (c ≠ '=') = true := by
          intro c hc
          exact decide_eq_true fun heq => hs' (heq ▸ hc)
        rw [List.takeWhile_append_of_pos hall, List.takeWhile_cons_of_pos (by decide)] at htake
        exact hk' (htake ▸ List.mem_append_right _ List.mem_cons_self)
  · have hs'' : '=' ∉ s' := fun hmem => ha (hs'.subset hmem)
    rw [List.append_assoc, List.cons_append, takeWhile_equals hs''] at htake
    exact hends (htake ▸ hs')

/-- `k=` is found with this value behind it, or not at all. -/
def Finds (k text : Text) (value : Option Text) : Prop :=
  match value with
  | none => Search.indexOf (k ++ ['=']) text = none
  | some b => ∃ i rest, Search.indexOf (k ++ ['=']) text = some i ∧
      text.drop i = k ++ '=' :: (b ++ rest) ∧ (rest = [] ∨ rest.head? = some '&')

lemma Finds.skip {x y : Text} {value : Option Text} (h : Finds k y value)
    (hskip : ∀ s, s <:+ x → s ≠ [] → ¬ k ++ ['='] <+: s ++ y) : Finds k (x ++ y) value := by
  cases value with
  | none => exact (Search.indexOf_skip hskip).trans (Option.map_eq_none_iff.mpr h)
  | some b =>
    obtain ⟨i, rest, hindex, hdrop, hrest⟩ := h
    refine ⟨x.length + i, rest, ?_, ?_, hrest⟩
    · rw [Search.indexOf_skip hskip, hindex, Option.map_some]
    · rw [List.drop_length_add_append, hdrop]

/-- A key that ends in `k`. -/
lemma finds_here (ha : '=' ∉ a) (hends : k <:+ a) (hrest : rest = [] ∨ rest.head? = some '&') :
    Finds k (a ++ '=' :: b ++ rest) (some b) := by
  obtain ⟨x, rfl⟩ := hends
  have hfirst : ¬ k ++ ['='] <:+: x ++ (k ++ ['=']).dropLast := by
    rw [List.dropLast_concat]
    exact fun hinside => ha (hinside.subset (List.mem_append_right _ List.mem_cons_self))
  have hsplit : x ++ k ++ '=' :: b ++ rest = x ++ (k ++ ['='] ++ (b ++ rest)) := by simp
  refine ⟨x.length, rest, ?_, ?_, hrest⟩
  · rw [hsplit]
    exact Search.indexOf_append hfirst _
  · rw [hsplit, List.drop_left, List.append_assoc, List.singleton_append]

lemma request_cons_cons (p q : Text × Text) (pairs : List (Text × Text)) :
    codec.request (p :: q :: pairs) = codec.pair p ++ '&' :: codec.request (q :: pairs) := by
  simp only [Codec.request, List.map_cons, List.intercalate_cons_cons, List.append_assoc,
    List.singleton_append]

/-- **Where the key is found**: in the first pair whose key ends in it. -/
theorem finds_request (hne : codec.apreqEncode key ≠ []) : ∀ pairs : List (Text × Text),
    Finds (codec.apreqEncode key) (codec.request pairs)
      ((pairs.find? (endsIn codec key)).map fun p => codec.apreqEncode p.2)
  | [] => Search.indexOf_nil (by simp)
  | p :: pairs => by
    have ha := codec.noEquals p.1
    have hb := codec.noEquals p.2
    have hk := codec.noEquals key
    have hk' := codec.noAmpersand key
    by_cases hends : endsIn codec key p = true
    · rw [List.find?_cons_of_pos hends, Option.map_some]
      rw [endsIn, List.isSuffixOf_iff_suffix] at hends
      cases pairs with
      | nil =>
        rw [Codec.request, List.map_singleton, List.intercalate_singleton, ← List.append_nil
          (codec.pair p)]
        exact finds_here ha hends (Or.inl rfl)
      | cons q pairs =>
        rw [request_cons_cons]
        exact finds_here ha hends (Or.inr rfl)
    · rw [List.find?_cons_of_neg hends]
      rw [endsIn, List.isSuffixOf_iff_suffix] at hends
      have ih := finds_request hne pairs
      cases pairs with
      | nil =>
        rw [Codec.request, List.map_singleton, List.intercalate_singleton, ← List.append_nil
          (codec.pair p)]
        refine Finds.skip ih fun s hs _ => ?_
        exact not_prefix_of_pair hk hk' hne ha hb hends (Or.inl rfl) hs
      | cons q pairs =>
        rw [request_cons_cons, List.append_cons]
        refine ih.skip fun s hs hs' => ?_
        rcases Search.suffix_append_cases hs with hs | ⟨s', rfl, hs, -⟩
        · obtain rfl : s = ['&'] := by
            rcases List.suffix_cons_iff.mp hs with hs | hs
            · exact hs
            · exact absurd (List.suffix_nil.mp hs) hs'
          have hrest : ('&' :: codec.request (q :: pairs)).head? = some '&' := rfl
          exact not_prefix_of_pair hk hk' hne ha hb hends (Or.inr hrest) List.nil_suffix
        · rw [List.append_assoc]
          exact not_prefix_of_pair hk hk' hne ha hb hends (Or.inr rfl) hs

/-! ## The value -/

lemma length_request_le (codec : Codec) {p : Text × Text} (hp : p ∈ pairs) :
    (codec.apreqEncode p.1).length ≤ (codec.request pairs).length := by
  induction pairs with
  | nil => cases hp
  | cons q pairs ih =>
    cases pairs with
    | nil =>
      rw [List.mem_singleton.mp hp, Codec.request, List.map_singleton, List.intercalate_singleton,
        Codec.pair, List.length_append]
      exact Nat.le_add_right _ _
    | cons r pairs =>
      rw [request_cons_cons, List.length_append, List.length_cons]
      rcases List.mem_cons.mp hp with rfl | hp
      · rw [Codec.pair, List.length_append]
        omega
      · have := ih hp
        omega

/-- A key is found by its own name, if it is there. -/
lemma endsIn_self (codec : Codec) (key : Text) {p : Text × Text} (h : p.1 = key) :
    endsIn codec key p = true := by
  rw [endsIn, List.isSuffixOf_iff_suffix, h]

/-- The result is that of the first pair whose key ends in the one searched for. -/
lemma urldecodeExpandValue_request (codec : Codec) (hkey : key ≠ []) (pairs : List (Text × Text)) :
    match pairs.find? (endsIn codec key) with
    | some p =>
      urldecodeExpandValue codec (codec.request pairs) (some key) key.length true = .ok p.2
    | none =>
      urldecodeExpandValue codec (codec.request pairs) (some key) key.length true =
          .error .srchKeyNotFound ∨
        urldecodeExpandValue codec (codec.request pairs) (some key) key.length true =
          .error .urlStrTooShort := by
  have hpos := List.length_pos_of_ne_nil hkey
  have hlength := codec.length_le key
  have hne : codec.apreqEncode key ≠ [] := List.ne_nil_of_length_pos (by omega)
  have hfinds := finds_request hne pairs
  simp only [urldecodeExpandValue, strstr, List.take_length, if_true,
    if_neg (show ¬ (key.length = 0 ∨ key.length = 0) by omega)]
  cases hfound : pairs.find? (endsIn codec key) with
  | none =>
    rw [hfound, Option.map_none] at hfinds
    rw [show Search.indexOf _ _ = none from hfinds]
    split_ifs
    · exact Or.inr rfl
    · exact Or.inl rfl
  | some p =>
    rw [hfound, Option.map_some] at hfinds
    obtain ⟨i, rest, hindex, hdrop, hrest⟩ := hfinds
    have hends := List.find?_some hfound
    have hshort := length_request_le codec (List.mem_of_find?_eq_some hfound)
    rw [endsIn, List.isSuffixOf_iff_suffix] at hends
    have hle := hends.length_le
    have hvalue : (codec.apreqEncode p.2 ++ rest).takeWhile (· ≠ '&') = codec.apreqEncode p.2 := by
      have hall : ∀ c ∈ codec.apreqEncode p.2, decide (c ≠ '&') = true := by
        intro c hc
        exact decide_eq_true fun heq => codec.noAmpersand p.2 (heq ▸ hc)
      rw [List.takeWhile_append_of_pos hall]
      rcases hrest with rfl | hhead
      · rw [List.takeWhile_nil, List.append_nil]
      · obtain ⟨t, rfl⟩ := List.head?_eq_some_iff.mp hhead
        rw [List.takeWhile_cons_of_neg (by decide), List.append_nil]
    have hdropped : (codec.apreqEncode key ++ '=' :: (codec.apreqEncode p.2 ++ rest)).dropWhile
        (· ≠ '=') = '=' :: (codec.apreqEncode p.2 ++ rest) := by
      rw [List.dropWhile_append_of_pos, List.dropWhile_cons_of_neg (by decide)]
      intro c hc
      exact decide_eq_true fun heq => codec.noEquals key (heq ▸ hc)
    rw [if_neg (by omega), hindex]
    simp only [hdrop, hdropped, hvalue, codec.decode_encode]

/-- **When the field is found by its name**: no key that ends in the one searched for, with another
value, comes before it. -/
theorem foundByName_iff (codec : Codec) (pairs : List (Text × Text)) (hkey : key ≠ []) :
    FoundByName pairs key
        (urldecodeExpandValue codec (codec.request pairs) (some key) key.length true) ↔
      (pairs.find? (endsIn codec key)).map Prod.snd =
        (pairs.find? (fun p => p.1 = key)).map Prod.snd := by
  have hresult := urldecodeExpandValue_request codec hkey pairs
  cases hends : pairs.find? (endsIn codec key) with
  | none =>
    have hnone : pairs.find? (fun p => p.1 = key) = none := by
      rw [List.find?_eq_none] at hends ⊢
      intro p hp hname
      exact hends p hp (endsIn_self codec key (of_decide_eq_true hname))
    rw [hends] at hresult
    rw [FoundByName, hnone]
    exact iff_of_true hresult rfl
  | some p =>
    rw [hends] at hresult
    rw [FoundByName, hresult, Option.map_some]
    cases hname : pairs.find? (fun p => p.1 = key) with
    | none => simp
    | some q => simp

/-! ## A key that ends in another -/

/-- Letters and digits as they are, and a number for every other character. -/
def plainEncode (s : Text) : Text :=
  s.flatMap fun c =>
    if c.isAlphanum then [c] else '%' :: (List.replicate c.toNat '1' ++ ['.'])

def plainDecode : Option ℕ → Text → Text
  | _, [] => []
  | none, c :: s => if c = '%' then plainDecode (some 0) s else c :: plainDecode none s
  | some n, c :: s =>
    if c = '.' then Char.ofNat n :: plainDecode none s else plainDecode (some (n + 1)) s

lemma plainDecode_number (s : Text) : ∀ k n,
    plainDecode (some n) (List.replicate k '1' ++ '.' :: s) = Char.ofNat (n + k) :: plainDecode none s
  | 0, n => by
    rw [List.replicate_zero, List.nil_append, plainDecode, if_pos rfl, Nat.add_zero]
  | k + 1, n => by
    rw [List.replicate_succ, List.cons_append, plainDecode, if_neg (by decide),
      plainDecode_number s k (n + 1), show n + 1 + k = n + (k + 1) by omega]

lemma plainEncode_cons (c : Char) (s : Text) : plainEncode (c :: s) =
    (if c.isAlphanum then [c] else '%' :: (List.replicate c.toNat '1' ++ ['.'])) ++
      plainEncode s := rfl

lemma plainDecode_plainEncode (s : Text) : plainDecode none (plainEncode s) = s := by
  induction s with
  | nil => rfl
  | cons c s ih =>
    rw [plainEncode_cons]
    split_ifs with hplain
    · have hpercent : c ≠ '%' := by
        rintro rfl
        exact absurd hplain (by decide)
      rw [List.singleton_append, plainDecode, if_neg hpercent, ih]
    · rw [List.cons_append, plainDecode, if_pos rfl, List.append_assoc, List.singleton_append,
        plainDecode_number, Nat.zero_add, Char.ofNat_toNat, ih]

lemma length_plainEncode (s : Text) : s.length ≤ (plainEncode s).length := by
  induction s with
  | nil => exact Nat.le_refl 0
  | cons c s ih =>
    rw [plainEncode_cons, List.length_append, List.length_cons]
    split_ifs
    · rw [List.length_singleton]
      omega
    · rw [List.length_cons]
      omega

lemma mem_plainEncode {c : Char} {s : Text} (h : c ∈ plainEncode s) :
    c.isAlphanum = true ∨ c = '%' ∨ c = '.' := by
  obtain ⟨d, -, h⟩ := List.mem_flatMap.mp h
  split_ifs at h with hplain
  · exact Or.inl (List.mem_singleton.mp h ▸ hplain)
  · simp only [List.mem_cons, List.mem_append, List.not_mem_nil, or_false] at h
    rcases h with h | h | h
    · exact Or.inr (Or.inl h)
    · exact Or.inl (List.eq_of_mem_replicate h ▸ by decide)
    · exact Or.inr (Or.inr h)

/-- An encoding that leaves letters and digits as they are, as `apreq_encode` does. -/
def plainCodec : Codec where
  apreqEncode := plainEncode
  apreqDecode := plainDecode none
  decode_encode := plainDecode_plainEncode
  length_le := length_plainEncode
  noAmpersand s h := absurd (mem_plainEncode h) (by decide)
  noEquals s h := absurd (mem_plainEncode h) (by decide)

/-- A request with other fields before it. -/
theorem foundByName_cdr : FoundByName [("uuid".toList, "a".toList), ("cdr".toList, "b".toList)]
    "cdr".toList (urldecodeExpandValue plainCodec (plainCodec.request
      [("uuid".toList, "a".toList), ("cdr".toList, "b".toList)]) (some "cdr".toList) 3 true) :=
  (foundByName_iff plainCodec [("uuid".toList, "a".toList), ("cdr".toList, "b".toList)]
    (show "cdr".toList ≠ [] by decide)).mpr (by decide)

/-- A field whose name ends in that of the field that is searched for. -/
theorem not_foundByName : ¬ ∀ (codec : Codec) (pairs : List (Text × Text)) (key : Text), key ≠ [] →
    FoundByName pairs key
      (urldecodeExpandValue codec (codec.request pairs) (some key) key.length true) := by
  intro h
  have hfound := (foundByName_iff plainCodec [("xcdr".toList, "1".toList),
    ("cdr".toList, "2".toList)] (show "cdr".toList ≠ [] by decide)).mp
    (h plainCodec _ _ (by decide))
  exact absurd hfound (by decide)

end FreeswitchContrib.XmlCdrd

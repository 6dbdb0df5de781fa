import FreeswitchContrib.Library.CString
import FreeswitchContrib.Library.FirstSeen

/-!
# The profiles of fs_eventsd

`eventsd.c` reads its configuration pair by pair into a table of profiles.  A pair whose category
differs from that of the pair before it opens a profile; actions and headers go to the profile that
has been opened last.  An event is compared with all profiles, each by the header that it names.

* `load`, `handle` — the two loops of `main`, which may index outside of the table or pass NULL to
  `strcasecmp`.
* `configured`, `due` — what the configuration says, and what is to be run for an event.
* **`runs_configured_actions_iff`** — the configurations and events for which that is what happens.
-/

namespace FreeswitchContrib.FsEventsd

open CString FirstSeen

/-- The characters of a string in front of its terminator. -/
abbrev Text := List Char

/-- `inbound_event_profile_t` -/
structure Profile where
  eName : Text
  eHeader : Text
  action : Text
  deriving DecidableEq

/-- What `esl_config_next_pair` comes back with. -/
structure Pair where
  category : Text
  var : Text
  val : Text

/-! ## The loops -/

/-- The size of a field of a profile and of `cur_cat`. -/
def fieldSize : ℕ := 128

/-- `profiles[128]` -/
def tableSize : ℕ := 128

/-- `esl_set_string`, which leaves room for the terminator. -/
def setString (src : Text) : Text := src.take (fieldSize - 1)

/-- `cur_cat` and the first `pcount` profiles. -/
structure Loading where
  curCat : Text
  profiles : List Profile

/-- A profile of the table that has not been used is all zero. -/
def openProfile (s : Loading) (pair : Pair) : Option Loading :=
  if s.curCat = pair.category then some s
  else if s.profiles.length < tableSize then
    let curCat := setString pair.category
    some ⟨curCat, s.profiles ++ [⟨setString curCat, [], []⟩]⟩
  else none

/-- `profiles[pcount-1]` is outside of the table where there is no profile. -/
def setLast (field : Profile → Profile) (profiles : List Profile) : Option (List Profile) :=
  match profiles.getLast? with
  | some last => some (profiles.dropLast ++ [field last])
  | none => none

/-- `if (!strcasecmp(var, name))` -/
def setNamed (name : String) (field : Text → Profile → Profile) (pair : Pair)
    (profiles : List Profile) : Option (List Profile) :=
  if strcasecmp pair.var name.toList then setLast (field (setString pair.val)) profiles
  else some profiles

def setAction (value : Text) (profile : Profile) : Profile := { profile with action := value }

def setHeader (value : Text) (profile : Profile) : Profile := { profile with eHeader := value }

/-- The body of `while (esl_config_next_pair(&cfg, &var, &val))`. -/
def nextPair (s : Loading) (pair : Pair) : Option Loading := do
  let s ← openProfile s pair
  let profiles ← setNamed "action" setAction pair s.profiles
  let profiles ← setNamed "header" setHeader pair profiles
  some { s with profiles }

def load (pairs : List Pair) : Option (List Profile) :=
  (pairs.foldlM nextPair ⟨[], []⟩).map Loading.profiles

/-- `for(i = 0; i < pcount; i++)`, with the actions that are run; the event is the function
`esl_event_get_header`, which has NULL for a missing header. -/
def handle (event : Text → Option Text) : List Profile → Option (List Text)
  | [] => some []
  | profile :: rest =>
    match event profile.eHeader with
    | none => none
    | some value =>
      if strcasecmp profile.eName value then (handle event rest).map (profile.action :: ·)
      else handle event rest

/-! ## What the configuration says -/

def categories (pairs : List Pair) : List Text := pairs.map Pair.category

/-- The value that is given last for a name. -/
def lastValue (var : String) (pairs : List Pair) : Text :=
  ((pairs.filter fun pair => strcasecmp pair.var var.toList).getLast?.map Pair.val).getD []

/-- The profile of a category, from all pairs of it. -/
def profileOf (pairs : List Pair) (category : Text) : Profile :=
  let own := pairs.filter fun pair => pair.category = category
  ⟨category, lastValue "header" own, lastValue "action" own⟩

/-- One profile for each category, in the order of first appearance. -/
def configured (pairs : List Pair) : List Profile :=
  (firstSeen (categories pairs)).map (profileOf pairs)

/-- The actions of the profiles whose name is the value of their header. -/
def due (event : Text → Option Text) (profiles : List Profile) : List Text :=
  (profiles.filter fun profile => (event profile.eHeader).any (strcasecmp profile.eName)).map
    Profile.action

/-- The configured profiles are loaded, and exactly the actions that are due are run. -/
def RunsConfigured (pairs : List Pair) (event : Text → Option Text) : Prop :=
  load pairs = some (configured pairs) ∧
    handle event (configured pairs) = some (due event (configured pairs))

/-- A profile that fits into the fields of the table. -/
structure Profile.Fits (profile : Profile) : Prop where
  eName : profile.eName.length < fieldSize
  eHeader : profile.eHeader.length < fieldSize
  action : profile.action.length < fieldSize

/-- A configuration that the table can hold: it does not begin with pairs outside of any category,
the pairs of a category stand together, and the profiles and their fields fit. -/
structure Orderly (pairs : List Pair) : Prop where
  first : (categories pairs).head? ≠ some []
  grouped : Grouped (categories pairs)
  few : (firstSeen (categories pairs)).length ≤ tableSize
  fits : ∀ profile ∈ configured pairs, profile.Fits

/-! ## One pair -/

variable {pairs : List Pair} {pair : Pair} {s s' : Loading} {profile : Profile}
  {profiles front : List Profile} {event : Text → Option Text} {category : Text}

lemma setString_of_fits {text : Text} (h : text.length < fieldSize) : setString text = text :=
  List.take_of_length_le (Nat.le_pred_of_lt h)

lemma length_setString (text : Text) : (setString text).length < fieldSize := by
  rw [setString, List.length_take]
  exact Nat.lt_of_le_of_lt (Nat.min_le_left _ _) (by decide)

lemma setLast_concat (field : Profile → Profile) (front : List Profile) (profile : Profile) :
    setLast field (front ++ [profile]) = some (front ++ [field profile]) := by
  rw [setLast, List.getLast?_concat]
  dsimp only
  rw [List.dropLast_concat]

/-- What a pair makes of the profile that has been opened last. -/
def assign (pair : Pair) (profile : Profile) : Profile where
  eName := profile.eName
  eHeader := if strcasecmp pair.var "header".toList then setString pair.val else profile.eHeader
  action := if strcasecmp pair.var "action".toList then setString pair.val else profile.action

lemma setNamed_concat (name : String) (field : Text → Profile → Profile) (pair : Pair)
    (front : List Profile) (profile : Profile) :
    setNamed name field pair (front ++ [profile]) = some (front ++
      [if strcasecmp pair.var name.toList then field (setString pair.val) profile else profile]) := by
  unfold setNamed
  split_ifs with h
  · exact setLast_concat _ front profile
  · rfl

/-- A pair goes to the profile that has been opened last. -/
lemma nextPair_eq (hopen : openProfile s pair = some ⟨category, front ++ [profile]⟩) :
    nextPair s pair = some ⟨category, front ++ [assign pair profile]⟩ := by
  rw [nextPair, hopen, Option.bind_eq_bind, Option.bind_some, setNamed_concat, Option.bind_eq_bind,
    Option.bind_some, setNamed_concat]
  unfold assign setAction setHeader
  split_ifs <;> rfl

/-! ## Orderly configurations -/

/-- What a profile of the table has room for. -/
def Profile.cut (profile : Profile) : Profile :=
  ⟨profile.eName, setString profile.eHeader, setString profile.action⟩

lemma Profile.Fits.cut_eq (h : profile.Fits) : profile.cut = profile := by
  rw [Profile.cut, setString_of_fits h.eHeader, setString_of_fits h.action]

lemma lastValue_concat (var : String) (pairs : List Pair) (pair : Pair) :
    lastValue var (pairs ++ [pair]) =
      if strcasecmp pair.var var.toList then pair.val else lastValue var pairs := by
  unfold lastValue
  rw [List.filter_append, List.filter_cons, List.filter_nil]
  split_ifs with h
  · rw [List.getLast?_concat]
    rfl
  · rw [List.append_nil]

lemma profileOf_of_not_mem (h : category ∉ categories pairs) :
    profileOf pairs category = ⟨category, [], []⟩ := by
  have hown : pairs.filter (fun pair => pair.category = category) = [] := by
    refine List.filter_eq_nil_iff.mpr fun pair hpair heq => h ?_
    exact List.mem_map.mpr ⟨pair, hpair, of_decide_eq_true heq⟩
  rw [profileOf, hown]
  rfl

/-- A pair is of no concern to the other categories. -/
lemma profileOf_concat_of_ne (h : pair.category ≠ category) :
    profileOf (pairs ++ [pair]) category = profileOf pairs category := by
  unfold profileOf
  rw [List.filter_append, List.filter_cons_of_neg (by simpa using h), List.filter_nil,
    List.append_nil]

lemma assign_cut (pairs : List Pair) (pair : Pair) :
    assign pair (profileOf pairs pair.category).cut =
      (profileOf (pairs ++ [pair]) pair.category).cut := by
  unfold profileOf
  rw [List.filter_append, List.filter_cons_of_pos (by simp), List.filter_nil]
  dsimp only
  rw [lastValue_concat, lastValue_concat]
  unfold assign Profile.cut
  split_ifs <;> rfl

/-- The pairs of a configuration that the table can hold are read into it. -/
lemma foldlM_nextPair (hfirst : (categories pairs).head? ≠ some [])
    (hgrouped : Grouped (categories pairs))
    (hfew : (firstSeen (categories pairs)).length ≤ tableSize)
    (hnames : ∀ c ∈ categories pairs, c.length < fieldSize) :
    pairs.foldlM nextPair ⟨[], []⟩ =
      some ⟨(categories pairs).getLast?.getD [], (configured pairs).map Profile.cut⟩ := by
  induction pairs using List.reverseRecOn with
  | nil => rfl
  | append_singleton pairs pair ih =>
    have hcategories : categories (pairs ++ [pair]) = categories pairs ++ [pair.category] :=
      List.map_append
    rw [hcategories] at hfirst hgrouped hfew hnames
    obtain ⟨front, hfront, hnot⟩ := hgrouped.firstSeen_concat
    have hname : pair.category.length < fieldSize :=
      hnames _ (List.mem_append_right _ (List.mem_singleton.mpr rfl))
    have hbefore := ih
      (fun hhead => hfirst (by rw [List.head?_append, hhead]; rfl)) hgrouped.of_concat
      (by
        rw [FirstSeen.firstSeen_concat] at hfew
        split_ifs at hfew
        · exact hfew
        · rw [List.length_append] at hfew
          omega)
      fun c hc => hnames c (List.mem_append_left _ hc)
    -- the profile of the category is the last one of the table, once it is open
    have hopen : openProfile
        ⟨(categories pairs).getLast?.getD [], (configured pairs).map Profile.cut⟩ pair =
          some ⟨pair.category, (front.map (profileOf pairs)).map Profile.cut ++
            [(profileOf pairs pair.category).cut]⟩ := by
      by_cases hsame : (categories pairs).getLast?.getD [] = pair.category
      · -- the pair before it is of this category
        have hmem : pair.category ∈ categories pairs := by
          rcases List.eq_nil_or_concat (categories pairs) with hnil | ⟨l, c, hconcat⟩
          · rw [hnil] at hsame hfirst
            exact absurd (by rw [← hsame]; rfl) hfirst
          · rw [hconcat, List.concat_eq_append, List.getLast?_concat, Option.getD_some] at hsame
            rw [hconcat, hsame, List.concat_eq_append]
            exact List.mem_append_right _ (List.mem_singleton.mpr rfl)
        rw [FirstSeen.firstSeen_concat, if_pos hmem] at hfront
        rw [openProfile, if_pos hsame, hsame, configured, hfront, List.map_append, List.map_append]
        rfl
      · have hnew : pair.category ∉ categories pairs := by
          rcases List.eq_nil_or_concat (categories pairs) with hnil | ⟨l, c, hconcat⟩
          · rw [hnil]
            exact List.not_mem_nil
          · rw [List.concat_eq_append] at hconcat
            rw [hconcat, List.getLast?_concat, Option.getD_some] at hsame
            rw [hconcat] at hgrouped ⊢
            exact hgrouped.not_mem (Ne.symm hsame)
        rw [FirstSeen.firstSeen_concat, if_neg hnew] at hfront hfew
        have hroom : ((configured pairs).map Profile.cut).length < tableSize := by
          rw [List.length_append] at hfew
          rw [List.length_map, configured, List.length_map]
          exact hfew
        obtain rfl := (List.append_inj' hfront rfl).1
        rw [openProfile, if_neg hsame, if_pos hroom, profileOf_of_not_mem hnew]
        dsimp only
        rw [setString_of_fits hname, setString_of_fits hname]
        rfl
    rw [List.foldlM_append, hbefore, Option.bind_eq_bind, Option.bind_some, List.foldlM_cons,
      nextPair_eq hopen, hcategories, List.getLast?_concat, assign_cut]
    have hothers : front.map (profileOf pairs) = front.map (profileOf (pairs ++ [pair])) :=
      List.map_congr_left fun c hc =>
        (profileOf_concat_of_ne fun heq => hnot (heq ▸ hc)).symm
    rw [configured, hcategories, hfront, hothers, List.map_append, List.map_append]
    rfl

lemma Orderly.load_eq (h : Orderly pairs) : load pairs = some (configured pairs) := by
  have hnames : ∀ c ∈ categories pairs, c.length < fieldSize := fun c hc =>
    (h.fits (profileOf pairs c) (List.mem_map_of_mem (mem_firstSeen.mpr hc))).eName
  have hcut : (configured pairs).map Profile.cut = configured pairs :=
    (List.map_congr_left fun profile hprofile => (h.fits profile hprofile).cut_eq).trans
      (List.map_id _)
  rw [load, foldlM_nextPair h.first h.grouped h.few hnames, Option.map_some, hcut]

/-! ## What the table holds -/

lemma setNamed_nil {name : String} {field : Text → Profile → Profile}
    (h : setNamed name field pair [] = some profiles) : profiles = [] := by
  unfold setNamed at h
  split_ifs at h with hnamed
  · cases h
  · exact (Option.some.inj h).symm

/-- A pair may open a profile, and goes to the one that has been opened last. -/
lemma nextPair_cases (h : nextPair s pair = some s') :
    ∃ s₁, openProfile s pair = some s₁ ∧ s'.curCat = s₁.curCat ∧
      (s'.profiles = s₁.profiles ∨ ∃ front profile, s₁.profiles = front ++ [profile] ∧
        s'.profiles = front ++ [assign pair profile]) := by
  cases hopen : openProfile s pair with
  | none =>
    rw [nextPair, hopen] at h
    cases h
  | some s₁ =>
    obtain ⟨category, profiles⟩ := s₁
    refine ⟨_, rfl, ?_⟩
    rcases List.eq_nil_or_concat profiles with rfl | ⟨front, profile, rfl⟩
    · rw [nextPair, hopen, Option.bind_eq_bind, Option.bind_some] at h
      obtain ⟨afterAction, haction, h⟩ := Option.bind_eq_some_iff.mp h
      obtain rfl := setNamed_nil haction
      obtain ⟨afterHeader, hheader, h⟩ := Option.bind_eq_some_iff.mp h
      obtain rfl := setNamed_nil hheader
      cases h
      exact ⟨rfl, .inl rfl⟩
    · rw [List.concat_eq_append] at hopen ⊢
      rw [nextPair_eq hopen] at h
      cases h
      exact ⟨rfl, .inr ⟨front, profile, rfl, rfl⟩⟩

/-- All profiles fit into the table and their fields. -/
structure TableFits (profiles : List Profile) : Prop where
  few : profiles.length ≤ tableSize
  fits : ∀ profile ∈ profiles, profile.Fits

lemma tableFits_nextPair (hfits : TableFits s.profiles) (h : nextPair s pair = some s') :
    TableFits s'.profiles := by
  obtain ⟨s₁, hopen, -, hprofiles⟩ := nextPair_cases h
  have hopened : TableFits s₁.profiles := by
    unfold openProfile at hopen
    split_ifs at hopen with hsame hroom
    · cases hopen
      exact hfits
    · cases hopen
      refine ⟨?_, fun profile hprofile => ?_⟩
      · rw [List.length_append]
        exact hroom
      · rcases List.mem_append.mp hprofile with hprofile | hprofile
        · exact hfits.fits profile hprofile
        · obtain rfl := List.mem_singleton.mp hprofile
          exact ⟨length_setString _, Nat.zero_lt_succ _, Nat.zero_lt_succ _⟩
  rcases hprofiles with heq | ⟨front, profile, hbefore, heq⟩
  · rwa [heq]
  · rw [hbefore] at hopened
    rw [heq]
    have hlast := hopened.fits profile (List.mem_append_right _ (List.mem_singleton.mpr rfl))
    refine ⟨?_, fun other hother => ?_⟩
    · have hfew := hopened.few
      rw [List.length_append] at hfew ⊢
      exact hfew
    · rcases List.mem_append.mp hother with hother | hother
      · exact hopened.fits other (List.mem_append_left _ hother)
      · obtain rfl := List.mem_singleton.mp hother
        unfold assign
        refine ⟨hlast.eName, ?_, ?_⟩
        · dsimp only
          split_ifs
          · exact length_setString _
          · exact hlast.eHeader
        · dsimp only
          split_ifs
          · exact length_setString _
          · exact hlast.action

lemma tableFits_load (h : load pairs = some profiles) : TableFits profiles := by
  obtain ⟨s', hrun, rfl⟩ := Option.map_eq_some_iff.mp h
  have hgeneral : ∀ s, TableFits s.profiles → pairs.foldlM nextPair s = some s' →
      TableFits s'.profiles := by
    clear hrun h
    induction pairs with
    | nil =>
      intro s hfits hrun
      cases hrun
      exact hfits
    | cons pair pairs ih =>
      intro s hfits hrun
      rw [List.foldlM_cons] at hrun
      obtain ⟨s₁, hnext, hrest⟩ := Option.bind_eq_some_iff.mp hrun
      exact ih s₁ (tableFits_nextPair hfits hnext) hrest
  exact hgeneral _ ⟨Nat.zero_le _, fun _ h => absurd h List.not_mem_nil⟩ hrun

/-- The names of the profiles are the categories that differ from the one before. -/
lemma names_foldlM (hnames : ∀ c ∈ categories pairs, c.length < fieldSize)
    (h : pairs.foldlM nextPair s = some s') :
    s'.profiles.map Profile.eName =
      s.profiles.map Profile.eName ++ changes s.curCat (categories pairs) := by
  induction pairs generalizing s with
  | nil =>
    cases h
    exact (List.append_nil _).symm
  | cons pair pairs ih =>
    rw [List.foldlM_cons] at h
    obtain ⟨s₁, hnext, hrest⟩ := Option.bind_eq_some_iff.mp h
    have hname : pair.category.length < fieldSize := hnames _ List.mem_cons_self
    obtain ⟨s₂, hopen, hcur, hprofiles⟩ := nextPair_cases hnext
    have hsame : s₁.profiles.map Profile.eName = s₂.profiles.map Profile.eName := by
      rcases hprofiles with heq | ⟨front, profile, hbefore, heq⟩
      · rw [heq]
      · rw [heq, hbefore, List.map_append, List.map_append]
        rfl
    rw [ih (fun c hc => hnames c (List.mem_cons_of_mem _ hc)) hrest, hsame, hcur]
    have hcategories : categories (pair :: pairs) = pair.category :: categories pairs := rfl
    rw [hcategories, changes]
    unfold openProfile at hopen
    split_ifs at hopen with hequal hroom
    · cases hopen
      rw [if_pos hequal.symm]
    · cases hopen
      dsimp only
      rw [if_neg (Ne.symm hequal), setString_of_fits hname, setString_of_fits hname,
        List.map_append, List.append_assoc]
      rfl

lemma orderly_of_load (h : load pairs = some (configured pairs)) : Orderly pairs := by
  have htable := tableFits_load h
  have hconfigured : (configured pairs).map Profile.eName = firstSeen (categories pairs) := by
    rw [configured, List.map_map]
    exact List.map_id _
  have hnames : ∀ c ∈ categories pairs, c.length < fieldSize := fun c hc =>
    (htable.fits (profileOf pairs c) (List.mem_map_of_mem (mem_firstSeen.mpr hc))).eName
  obtain ⟨s', hrun, heq⟩ := Option.map_eq_some_iff.mp h
  have hchanges := names_foldlM hnames hrun
  rw [heq, hconfigured] at hchanges
  obtain ⟨hfirst, hgrouped⟩ := changes_eq_firstSeen_iff.mp hchanges.symm
  refine ⟨hfirst, hgrouped, ?_, htable.fits⟩
  have hfew := htable.few
  rwa [configured, List.length_map] at hfew

/-! ## An event -/

/-- Exactly what is due is run, exactly if no header that is looked at is missing. -/
lemma handle_eq_iff :
    handle event profiles = some (due event profiles) ↔
      ∀ profile ∈ profiles, event profile.eHeader ≠ none := by
  induction profiles with
  | nil => exact iff_of_true rfl fun _ h => absurd h List.not_mem_nil
  | cons profile rest ih =>
    rw [List.forall_mem_cons, handle, due, List.filter_cons]
    cases hheader : event profile.eHeader with
    | none => simp
    | some value =>
      rw [← ih, due]
      cases hmatch : strcasecmp profile.eName value with
      | true => simp [hmatch]
      | false => simp [hmatch]

/-- **The configured actions are run** exactly if the table can hold the configuration and the event
has the header of every profile. -/
theorem runs_configured_actions_iff (pairs : List Pair) (event : Text → Option Text) :
    RunsConfigured pairs event ↔
      Orderly pairs ∧ ∀ profile ∈ configured pairs, event profile.eHeader ≠ none :=
  and_congr ⟨orderly_of_load, Orderly.load_eq⟩ handle_eq_iff

/-- A profile for calls. -/
def inbound : List Pair :=
  [⟨"inbound".toList, "action".toList, "./test.py".toList⟩,
    ⟨"inbound".toList, "header".toList, "Call-Direction".toList⟩]

/-- An event that is not about a call. -/
def heartbeat (name : Text) : Option Text :=
  if name = "Event-Name".toList then some "HEARTBEAT".toList else none

/-- An event without the header of a profile is compared all the same. -/
theorem missing_header_compared : ¬ RunsConfigured inbound heartbeat := by
  intro h
  exact absurd h.2 (by decide)

end FreeswitchContrib.FsEventsd

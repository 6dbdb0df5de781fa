import FreeswitchContrib.Library.Interning
import FreeswitchContrib.SimpleLcr.CarrierRoutingExact

/-!
# The internal IDs of areas

`load_area_file` numbers the external area IDs of a file in the order in which the file names them.
The hash of the numbers and the counter, which has sixteen bits, live for one file; the trie that
gets the numbers is the one of the database.

* `loadConfig_areas`: the map of a database is what the rows of all its area files make, each with
  its number;
* `areaIds_identify_iff`: the numbers stand for the external IDs if and only if the files number
  them alike and no file names more than the counter can count.
-/

namespace FreeswitchContrib.SimpleLcr

open Interning

variable {core : Core} {files : Files} {cfg : Config} {lcr lcr' : Lcr} {calls : List RouteCall}
  {names : List (List Char)} {areas areas' : AreaMap} {line extId : List Char} {trie : RouteTrie}

/-! ## Rows -/

/-- A row of an area file with the internal ID it is loaded with. -/
structure AreaRow where
  digits : List Char
  extId : List Char
  id : RouteValue
  deriving DecidableEq

def AreaRow.call (row : AreaRow) : RouteCall := ⟨row.digits, 0, row.id, 0⟩

def lineDigits (core : Core) (line : List Char) : List Char :=
  (core.switchSeparateString line ',' 3).getD 0 []

def lineExtId (core : Core) (line : List Char) : List Char :=
  (core.switchSeparateString line ',' 3).getD 1 []

/-- The number of an external ID: its place among the names, from one, in sixteen bits. -/
def internalId (names : List (List Char)) (extId : List Char) : RouteValue :=
  Fin.ofNat 65536 (names.idxOf extId + 1)

scoped instance lawfulName : LawfulBEq (List Char) := inferInstance

/-- The external IDs in the order in which the lines name them. -/
def areaNames (core : Core) (lines : List (List Char)) : List (List Char) :=
  internAll [] (lines.map (lineExtId core))

def areaRows (core : Core) (lines : List (List Char)) : List AreaRow :=
  lines.map fun line => ⟨lineDigits core line, lineExtId core line,
    internalId (areaNames core lines) (lineExtId core line)⟩

/-- The lines of a file, if it can be opened. -/
def linesOf (files : Files) (file : List Char) : List (List Char) :=
  ((files file).map fileLines).getD []

/-- The files of the `areas` parameters. -/
def areaFiles (cfg : Config) : List (List Char) :=
  (cfg.settings.filter fun param => strcasecmp "areas".toList param.1 && param.2 ≠ []).map Prod.snd

/-- All the rows of a configuration, in the order in which they are loaded. -/
def loadedRows (core : Core) (files : Files) (cfg : Config) : List AreaRow :=
  (areaFiles cfg).flatMap fun file => areaRows core (linesOf files file)

/-! ## One file -/

/-- The counter and the hash when the lines so far named these. -/
structure Numbered (names : List (List Char)) (areas : AreaMap) : Prop where
  nextId : areas.nextId = Fin.ofNat 65536 names.length
  lookup : ∀ extId, areas.areaHash.lookup extId
    = if extId ∈ names then some (internalId names extId) else none

lemma Numbered.create (trie : RouteTrie) : Numbered [] ⟨trie, 0, []⟩ where
  nextId := rfl
  lookup := fun _ => rfl

lemma internalId_eq_of_names {names' : List (List Char)} (h : names <+: names')
    (hmem : extId ∈ names) : internalId names' extId = internalId names extId := by
  rw [internalId, internalId, idxOf_of_prefix h hmem]

/-- What a line does to the counter and the hash. -/
def noteArea (areas : AreaMap) (extId : List Char) : AreaMap :=
  match areas.areaHash.lookup extId with
  | some _ => areas
  | none => { areas with
      nextId := areas.nextId + 1, areaHash := (extId, areas.nextId + 1) :: areas.areaHash }

lemma loadAreaLine_eq (core : Core) (areas : AreaMap) (line : List Char) :
    loadAreaLine core areas line = if (core.switchSeparateString line ',' 3).length < 2 then none
      else (addRoute (noteArea areas (lineExtId core line)).trie ⟨lineDigits core line, 0,
        ((noteArea areas (lineExtId core line)).areaHash.lookup (lineExtId core line)).getD 0,
        0⟩).map fun trie => { noteArea areas (lineExtId core line) with trie := trie } := rfl

lemma trie_noteArea (areas : AreaMap) (extId : List Char) :
    (noteArea areas extId).trie = areas.trie := by
  rw [noteArea]
  split <;> rfl

lemma Numbered.nextId_succ (h : Numbered names areas) (hnew : extId ∉ names) :
    areas.nextId + 1 = internalId (intern names extId) extId := by
  rw [internalId, idxOf_intern_of_notMem hnew, h.nextId]
  apply Fin.ext
  simp [Fin.val_add]

/-- The hash knows the external ID after its line. -/
lemma Numbered.noteArea (h : Numbered names areas) (extId : List Char) :
    Numbered (intern names extId) (noteArea areas extId) := by
  have hfound := h.lookup extId
  by_cases hmem : extId ∈ names
  · rw [if_pos hmem] at hfound
    rw [intern_of_mem hmem]
    simpa only [SimpleLcr.noteArea, hfound] using h
  · rw [if_neg hmem] at hfound
    simp only [SimpleLcr.noteArea, hfound]
    constructor
    · show areas.nextId + 1 = _
      rw [h.nextId, intern_of_notMem hmem, List.length_append, List.length_singleton]
      apply Fin.ext
      simp [Fin.val_add]
    · intro extId'
      simp only [List.lookup_cons, mem_intern_iff]
      by_cases heq : extId' = extId
      · subst heq
        simp [h.nextId_succ hmem]
      · have hne : (extId' == extId) = false := beq_false_of_ne heq
        simp only [hne, heq, or_false, h.lookup]
        split_ifs with hold
        · rw [internalId_eq_of_names (prefix_intern names extId) hold]
        · rfl

/-- **One line** adds a route with the number of its external ID. -/
theorem loadAreaLine_numbered (h : Numbered names areas) (htrie : areas.trie = loadRoutes 1 calls)
    (hload : loadAreaLine core areas line = some areas') :
    Numbered (intern names (lineExtId core line)) areas' ∧
      areas'.trie = loadRoutes 1 (calls ++ [⟨lineDigits core line, 0,
        internalId (intern names (lineExtId core line)) (lineExtId core line), 0⟩]) := by
  have hnum := h.noteArea (lineExtId core line)
  have hid : ((noteArea areas (lineExtId core line)).areaHash.lookup (lineExtId core line)).getD 0
      = internalId (intern names (lineExtId core line)) (lineExtId core line) := by
    rw [hnum.lookup, if_pos (mem_intern_iff.mpr (Or.inr rfl))]
    rfl
  rw [loadAreaLine_eq, hid, trie_noteArea, htrie] at hload
  split_ifs at hload
  obtain ⟨trie, hadd, rfl⟩ := Option.map_eq_some_iff.mp hload
  exact ⟨⟨hnum.nextId, hnum.lookup⟩, addRoute_loadRoutes hadd⟩

/-- The lines of a file. -/
lemma foldlM_loadAreaLine : ∀ {lines : List (List Char)} {names : List (List Char)}
    {areas : AreaMap} {calls : List RouteCall}, Numbered names areas →
    areas.trie = loadRoutes 1 calls → lines.foldlM (loadAreaLine core) areas = some areas' →
    areas'.trie = loadRoutes 1 (calls ++ lines.map fun line => ⟨lineDigits core line, 0,
      internalId (internAll names (lines.map (lineExtId core))) (lineExtId core line), 0⟩)
  | [], _, areas, calls, _, htrie, hload => by
    obtain rfl : areas = areas' := Option.some.inj hload
    simpa using htrie
  | line :: lines, names, areas, calls, h, htrie, hload => by
    rw [List.foldlM_cons, Option.bind_eq_bind, Option.bind_eq_some_iff] at hload
    obtain ⟨areas₁, hline, hload⟩ := hload
    obtain ⟨h₁, htrie₁⟩ := loadAreaLine_numbered h htrie hline
    have ih := foldlM_loadAreaLine h₁ htrie₁ hload
    have hid : internalId (intern names (lineExtId core line)) (lineExtId core line)
        = internalId (internAll names ((line :: lines).map (lineExtId core)))
          (lineExtId core line) :=
      (internalId_eq_of_names (prefix_internAll (lines.map (lineExtId core)) _)
        (mem_intern_iff.mpr (Or.inr rfl))).symm
    rw [ih, List.append_assoc, List.singleton_append, hid]
    rfl

/-- **One file** adds its rows to the map. -/
theorem loadAreaFile_loadRoutes {area : List Char}
    (h : loadAreaFile core files (loadRoutes 1 calls) area = some trie) :
    trie = loadRoutes 1 (calls ++ (areaRows core (linesOf files area)).map AreaRow.call) := by
  rw [loadAreaFile, Option.bind_eq_some_iff] at h
  obtain ⟨file, hfile, h⟩ := h
  obtain ⟨areas, hlines, rfl⟩ := Option.map_eq_some_iff.mp h
  rw [foldlM_loadAreaLine (Numbered.create _) rfl hlines, areaRows, linesOf, hfile, List.map_map]
  rfl

/-! ## All files -/

lemma areas_lcrSetMaxRoutes (lcr : Lcr) (maxRoutes : ℤ) :
    (lcrSetMaxRoutes lcr maxRoutes).areas = lcr.areas := by
  rw [lcrSetMaxRoutes]
  split_ifs <;> rfl

/-- A parameter that names no area file leaves the map as it is. -/
lemma loadParam_areas {param : List Char × List Char} (hareas : lcr.areas = loadRoutes 1 calls)
    (h : loadParam core files lcr param = some lcr') :
    lcr'.areas = loadRoutes 1 (calls ++ (if strcasecmp "areas".toList param.1 && param.2 ≠ [] then
      (areaRows core (linesOf files param.2)).map AreaRow.call else [])) := by
  rw [loadParam] at h
  by_cases hname : strcasecmp "areas".toList param.1 = true
  · -- the name is none of those that come before it
    have hlower : param.1.map Char.toLower = "areas".toList.map Char.toLower := by
      rw [strcasecmp, beq_iff_eq] at hname
      exact hname.symm
    have hnil : param.1 ≠ [] := fun h0 => by
      rw [h0] at hlower
      exact absurd hlower (by decide)
    have hmax : strcasecmp "max-routes".toList param.1 = false := by
      rw [strcasecmp, hlower]
      decide
    simp only [hnil, if_false, hmax, Bool.false_eq_true, hname, if_true] at h
    rw [hname, Bool.true_and]
    split_ifs at h with hvalue
    · obtain rfl := Option.some.inj h
      rw [decide_eq_false (not_not.mpr hvalue), if_neg Bool.false_ne_true, List.append_nil, hareas]
    · obtain ⟨trie, htrie, rfl⟩ := Option.map_eq_some_iff.mp h
      rw [hareas] at htrie
      rw [decide_eq_true hvalue, if_pos rfl]
      exact loadAreaFile_loadRoutes htrie
  · have hnone : (strcasecmp "areas".toList param.1 && decide (param.2 ≠ [])) = false := by
      rw [Bool.not_eq_true] at hname
      rw [hname, Bool.false_and]
    simp only [hname, Bool.false_eq_true, if_false] at h
    rw [hnone, if_neg Bool.false_ne_true, List.append_nil, ← hareas]
    split_ifs at h
    all_goals first
      | exact (Option.some.inj h) ▸ rfl
      | exact (Option.some.inj h) ▸ areas_lcrSetMaxRoutes _ _

lemma foldlM_loadParam_areas : ∀ {settings : List (List Char × List Char)} {lcr : Lcr}
    {calls : List RouteCall}, lcr.areas = loadRoutes 1 calls →
    settings.foldlM (loadParam core files) lcr = some lcr' →
    lcr'.areas = loadRoutes 1 (calls ++
      (((settings.filter fun param => strcasecmp "areas".toList param.1 && param.2 ≠ []).map
        Prod.snd).flatMap fun file => areaRows core (linesOf files file)).map AreaRow.call)
  | [], lcr, calls, hareas, h => by
    obtain rfl : lcr = lcr' := Option.some.inj h
    simpa using hareas
  | param :: settings, lcr, calls, hareas, h => by
    rw [List.foldlM_cons, Option.bind_eq_bind, Option.bind_eq_some_iff] at h
    obtain ⟨lcr₁, hparam, h⟩ := h
    rw [foldlM_loadParam_areas (loadParam_areas hareas hparam) h, List.append_assoc]
    congr 2
    rw [List.filter_cons]
    split_ifs
    · rw [List.map_cons, List.flatMap_cons, List.map_append]
    · rw [List.nil_append]

lemma loadCarriers_areas : ∀ {carriers : List CarrierXml} {id : RouteValue} {lcr : Lcr},
    loadCarriers core files lcr id carriers = some lcr' → lcr'.areas = lcr.areas
  | [], _, lcr, h => by
    obtain rfl : lcr = lcr' := Option.some.inj h
    rfl
  | carrier :: carriers, id, lcr, h => by
    rw [loadCarriers, Option.bind_eq_some_iff] at h
    obtain ⟨lcr₁, hcarrier, h⟩ := h
    obtain ⟨-, -, -, interAreas, tries, -, -, rfl⟩ := loadCarrier_eq_some_iff.mp hcarrier
    rw [loadCarriers_areas h]

/-- **The map of a database**: the rows of all the area files, in their order. -/
theorem loadConfig_areas (h : loadConfig core files cfg = some lcr) :
    lcr.areas = loadRoutes 1 ((loadedRows core files cfg).map AreaRow.call) := by
  obtain ⟨-, lcr₀, hparams, hcarriers⟩ := loadConfig_eq_some_iff.mp h
  have hareas : (lcrCreate cfg.carriers.length).areas = loadRoutes 1 [] := rfl
  rw [loadCarriers_areas hcarriers, foldlM_loadParam_areas hareas hparams]
  rfl

/-! ## Do the numbers stand for the areas? -/

/-- Rows have the same internal ID when they have the same external one, and not otherwise. -/
structure IdsIdentify (rows : List AreaRow) : Prop where
  same_iff : ∀ row ∈ rows, ∀ row' ∈ rows, row.id = row'.id ↔ row.extId = row'.extId
  nonzero : ∀ row ∈ rows, row.id ≠ 0

/-- Of any two area files one goes on with the areas of the other, in the order in which they are
named first, and no file names more than 65535 areas. -/
structure NumberedAlike (core : Core) (files : Files) (cfg : Config) : Prop where
  counted : ∀ file ∈ areaFiles cfg, (areaNames core (linesOf files file)).length ≤ 65535
  alike : ∀ file ∈ areaFiles cfg, ∀ file' ∈ areaFiles cfg,
    areaNames core (linesOf files file) <+: areaNames core (linesOf files file') ∨
      areaNames core (linesOf files file') <+: areaNames core (linesOf files file)

lemma mem_areaNames {lines : List (List Char)} :
    extId ∈ areaNames core lines ↔ ∃ row ∈ areaRows core lines, row.extId = extId := by
  rw [areaNames, mem_internAll_iff]
  simp [areaRows, eq_comm]

lemma id_of_mem_areaRows {lines : List (List Char)} {row : AreaRow}
    (h : row ∈ areaRows core lines) : row.id = internalId (areaNames core lines) row.extId := by
  obtain ⟨line, -, rfl⟩ := List.mem_map.mp h
  rfl

lemma val_internalId (h : names.length ≤ 65535) (hmem : extId ∈ names) :
    (internalId names extId).val = names.idxOf extId + 1 := by
  have hlt := List.idxOf_lt_length_iff.mpr hmem
  exact Nat.mod_eq_of_lt (by omega)

lemma internalId_ne_zero (h : names.length ≤ 65535) (hmem : extId ∈ names) :
    internalId names extId ≠ 0 := by
  intro h0
  have hval := congrArg Fin.val h0
  rw [val_internalId h hmem] at hval
  simp at hval

lemma internalId_eq_iff {names' : List (List Char)} {extId' : List Char}
    (h : names.length ≤ 65535) (h' : names'.length ≤ 65535) (hmem : extId ∈ names)
    (hmem' : extId' ∈ names') :
    internalId names extId = internalId names' extId' ↔ names.idxOf extId = names'.idxOf extId' := by
  rw [Fin.ext_iff, val_internalId h hmem, val_internalId h' hmem']
  exact Nat.add_right_cancel_iff

lemma mem_loadedRows {row : AreaRow} : row ∈ loadedRows core files cfg ↔
    ∃ file ∈ areaFiles cfg, row ∈ areaRows core (linesOf files file) := List.mem_flatMap

lemma NumberedAlike.idsIdentify (h : NumberedAlike core files cfg) :
    IdsIdentify (loadedRows core files cfg) := by
  have hmem : ∀ {file row}, row ∈ areaRows core (linesOf files file) →
      row.extId ∈ areaNames core (linesOf files file) := fun hrow => mem_areaNames.mpr ⟨_, hrow, rfl⟩
  have hnodup : ∀ file, (areaNames core (linesOf files file)).Nodup := fun file =>
    nodup_internAll List.nodup_nil _
  constructor
  · intro row hrow row' hrow'
    obtain ⟨file, hfile, hrow⟩ := mem_loadedRows.mp hrow
    obtain ⟨file', hfile', hrow'⟩ := mem_loadedRows.mp hrow'
    rw [id_of_mem_areaRows hrow, id_of_mem_areaRows hrow', internalId_eq_iff (h.counted file hfile)
      (h.counted file' hfile') (hmem hrow) (hmem hrow')]
    exact (idxOf_agree_iff (hnodup file) (hnodup file')).mpr (h.alike file hfile file' hfile') _
      (hmem hrow) _ (hmem hrow')
  · intro row hrow
    obtain ⟨file, hfile, hrow⟩ := mem_loadedRows.mp hrow
    rw [id_of_mem_areaRows hrow]
    exact internalId_ne_zero (h.counted file hfile) (hmem hrow)

lemma IdsIdentify.numberedAlike (h : IdsIdentify (loadedRows core files cfg)) :
    NumberedAlike core files cfg := by
  have hnodup : ∀ file, (areaNames core (linesOf files file)).Nodup := fun file =>
    nodup_internAll List.nodup_nil _
  have hrow : ∀ {file extId}, file ∈ areaFiles cfg →
      extId ∈ areaNames core (linesOf files file) → ∃ row ∈ loadedRows core files cfg,
        row.extId = extId ∧ row.id = internalId (areaNames core (linesOf files file)) extId := by
    intro file extId hfile hmem
    obtain ⟨row, hrow, rfl⟩ := mem_areaNames.mp hmem
    exact ⟨row, mem_loadedRows.mpr ⟨file, hfile, hrow⟩, rfl, id_of_mem_areaRows hrow⟩
  have hcounted : ∀ file ∈ areaFiles cfg, (areaNames core (linesOf files file)).length ≤ 65535 := by
    intro file hfile
    by_contra hlong
    rw [not_le] at hlong
    -- the area that the counter comes back to 0 for
    obtain ⟨row, hmem, -, hid⟩ := hrow hfile (List.getElem_mem hlong)
    refine h.nonzero row hmem ?_
    rw [hid, internalId, (hnodup file).idxOf_getElem]
    rfl
  refine ⟨hcounted, fun file hfile file' hfile' => ?_⟩
  rw [← idxOf_agree_iff (hnodup file) (hnodup file')]
  intro extId hmem extId' hmem'
  obtain ⟨row, hrow₁, hext, hid⟩ := hrow hfile hmem
  obtain ⟨row', hrow₂, hext', hid'⟩ := hrow hfile' hmem'
  rw [← internalId_eq_iff (hcounted file hfile) (hcounted file' hfile') hmem hmem', ← hid, ← hid',
    h.same_iff row hrow₁ row' hrow₂, hext, hext']

/-- **Area IDs.**  A database has the rows of its area files with their internal IDs, and these
stand for the external IDs if and only if the files are numbered alike. -/
theorem areaIds_identify_iff (h : loadConfig core files cfg = some lcr) :
    lcr.areas = loadRoutes 1 ((loadedRows core files cfg).map AreaRow.call) ∧
      (IdsIdentify (loadedRows core files cfg) ↔ NumberedAlike core files cfg) :=
  ⟨loadConfig_areas h, IdsIdentify.numberedAlike, NumberedAlike.idsIdentify⟩

/-- Two area files that begin with different areas. -/
def stateFiles : Files := fun name =>
  if name = "east".toList then some "201,NJ\n212,NY".toList
  else if name = "west".toList then some "213,CA".toList
  else none

def oneFileConfig : Config := ⟨[("areas".toList, "east".toList)], []⟩

def twoFilesConfig : Config :=
  ⟨[("areas".toList, "east".toList), ("areas".toList, "west".toList)], []⟩

lemma loadConfig_oneFile : (loadConfig plainCore stateFiles oneFileConfig).isSome = true := by
  with_unfolding_all decide

theorem areaIds_identify_oneFile : IdsIdentify (loadedRows plainCore stateFiles oneFileConfig) := by
  refine (areaIds_identify_iff (Option.some_get loadConfig_oneFile).symm).2.mpr ⟨?_, ?_⟩
  · with_unfolding_all decide
  · with_unfolding_all decide

lemma loadConfig_twoFiles : (loadConfig plainCore stateFiles twoFilesConfig).isSome = true := by
  with_unfolding_all decide

/-- New Jersey and California have the number 1. -/
theorem not_areaIds_identify : ¬∀ (core : Core) (files : Files) (cfg : Config) (lcr : Lcr),
    loadConfig core files cfg = some lcr → IdsIdentify (loadedRows core files cfg) := by
  intro h
  have hids := h plainCore stateFiles twoFilesConfig _ (Option.some_get loadConfig_twoFiles).symm
  have hsame := hids.same_iff ⟨"201".toList, "NJ".toList, 1⟩ (by with_unfolding_all decide)
    ⟨"213".toList, "CA".toList, 1⟩ (by with_unfolding_all decide)
  exact absurd (hsame.mp rfl) (by decide)

end FreeswitchContrib.SimpleLcr

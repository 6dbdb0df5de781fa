import FreeswitchContrib.Library.CString
import Mathlib.Data.List.Basic
import Mathlib.Data.String.Basic
import Mathlib.Data.UInt
import Mathlib.Logic.Function.Basic

/-!
# Configuration options

`mod_khomp` keeps its settings in variables of its own and registers an option for each of them.
An option is of one of five types, knows the variable it sets, a default and which values are
allowed, and a flag says whether it has been loaded.  `process` finds an option by its name or by a
synonym, converts the text of a configuration file and sets the variable, or throws; `commit`
gives the options that have not been loaded their defaults.

An exception does not undo what has been done before it, so an outcome that throws has a state as
well.
-/

namespace Khomp

/-- What is thrown: `config_process_failure`, `Variant::InvalidType`, `Strings::invalid_value`. -/
inductive Thrown
  | configProcessFailure (msg : String)
  | invalidType
  | invalidValue (str : String)
  deriving DecidableEq, Repr

/-- How a call ends: it returns, it throws, or a division by zero ends the program. -/
inductive Outcome (σ : Type)
  | returned (state : σ)
  | thrown (exception : Thrown) (state : σ)
  | killed

def Outcome.map {σ τ : Type} (f : σ → τ) : Outcome σ → Outcome τ
  | .returned state => .returned (f state)
  | .thrown exception state => .thrown exception (f state)
  | .killed => .killed

/-- What a variable holds. -/
inductive Value
  | sint (value : Int32)
  | uint (value : UInt32)
  | bool (value : Bool)
  | string (value : String)
  deriving DecidableEq

/-- The variables, by their addresses. -/
abbrev Memory := ℕ → Value

structure Range (number : Type) where
  minimum : number
  maximum : number
  step : number

/-- The data of an option of each type; the first component says which variable it sets. -/
inductive ValueData
  | sintData (sintVal : ℕ) (sintDefault : Int32) (sintRange : Range Int32)
  | uintData (uintVal : ℕ) (uintDefault : UInt32) (uintRange : Range UInt32)
  | boolData (boolVal : ℕ) (boolDefault : Bool)
  | stringData (stringVal : ℕ) (stringDefault : String) (stringAllowed : List String)
  | funData (funVal : String → Memory → Outcome Memory) (funDefault : String)

/-- `value_id_type` -/
inductive ValueId
  | sint
  | uint
  | bool
  | string
  | function
  deriving DecidableEq

def ValueData.which : ValueData → ValueId
  | .sintData .. => .sint
  | .uintData .. => .uint
  | .boolData .. => .bool
  | .stringData .. => .string
  | .funData .. => .function

/-- The variable that the option sets itself. -/
def ValueData.boundTo : ValueData → Option ℕ
  | .sintData sintVal _ _ => some sintVal
  | .uintData uintVal _ _ => some uintVal
  | .boolData boolVal _ => some boolVal
  | .stringData stringVal _ _ => some stringVal
  | .funData _ _ => none

/-- The default of the variable. -/
def ValueData.default : ValueData → Option Value
  | .sintData _ sintDefault _ => some (.sint sintDefault)
  | .uintData _ uintDefault _ => some (.uint uintDefault)
  | .boolData _ boolDefault => some (.bool boolDefault)
  | .stringData _ stringDefault _ => some (.string stringDefault)
  | .funData _ _ => none

structure ConfigOption where
  myName : String
  valueData : ValueData
  loaded : Bool

namespace ConfigOption

/-- `type()` -/
def type (option : ConfigOption) : ValueId := option.valueData.which

/-- The variable that is bound to the option. -/
def boundTo (option : ConfigOption) : Option ℕ := option.valueData.boundTo

/-- The variable gets the value, and the option has been loaded. -/
def assign (option : ConfigOption) (memory : Memory) (variable_ : ℕ) (value : Value) :
    Outcome (ConfigOption × Memory) :=
  .returned ({ option with loaded := true }, Function.update memory variable_ value)

def allowedString (stringAllowed : List String) : String :=
  String.join (stringAllowed.map fun allowed => " '" ++ allowed ++ "'")

/-- `set(string_type)` -/
def setString (value : String) (option : ConfigOption) (memory : Memory) :
    Outcome (ConfigOption × Memory) :=
  match option.valueData with
  | .stringData stringVal _ stringAllowed =>
    if stringAllowed.isEmpty then option.assign memory stringVal (.string value)
    else if value ∈ stringAllowed then option.assign memory stringVal (.string value)
    else
      .thrown (.configProcessFailure ("value '" ++ value ++ "' not allowed for option '" ++
        option.myName ++ "' (allowed values:" ++ allowedString stringAllowed ++ ")"))
        (option, memory)
  | .funData funVal _ =>
    match funVal value memory with
    | .returned memory => .returned ({ option with loaded := true }, memory)
    | .thrown exception memory => .thrown exception (option, memory)
    | .killed => .killed
  | _ =>
    .thrown (.configProcessFailure ("option '" ++ option.myName ++
      "' is not of type string, nor function defined")) (option, memory)

/-- The three checks of a number.  `rest` is the remainder of a division, where there is one, and
`format` writes the number with `%d`. -/
def setNumber {number : Type} [LT number] [DecidableLT number] [Sub number] [Zero number]
    [DecidableEq number] (rest : number → number → Option number) (format : number → String)
    (stored : number → Value) (variable_ : ℕ) (range : Range number) (value : number)
    (option : ConfigOption) (memory : Memory) : Outcome (ConfigOption × Memory) :=
  let outOfRange (reason : String) : Outcome (ConfigOption × Memory) :=
    .thrown (.configProcessFailure ("value '" ++ format value ++
      "' out-of-range for option '" ++ option.myName ++ "' (" ++ reason ++ ")")) (option, memory)
  if value < range.minimum then outOfRange "too low"
  else if range.maximum < value then outOfRange "too high"
  else
    match rest (value - range.minimum) range.step with
    | none => .killed
    | some remainder =>
      if remainder ≠ 0 then outOfRange "outside allowed step"
      else option.assign memory variable_ (stored value)

/-- The remainder of an `int` division, which traps on these operands. -/
def sintRest (dividend divisor : Int32) : Option Int32 :=
  if divisor = 0 ∨ (dividend = Int32.minValue ∧ divisor = -1) then none
  else some (dividend % divisor)

def uintRest (dividend divisor : UInt32) : Option UInt32 :=
  if divisor = 0 then none else some (dividend % divisor)

/-- `FMT("%d") % value` -/
def formatSint (value : Int32) : String := toString value

/-- `FMT("%d") % value`, for which `snprintf` takes the bits of the number as those of an `int`. -/
def formatUint (value : UInt32) : String := toString value.toInt32

/-- `set(sint_type)`; the difference wraps around. -/
def setSint (value : Int32) (option : ConfigOption) (memory : Memory) :
    Outcome (ConfigOption × Memory) :=
  match option.valueData with
  | .sintData sintVal _ sintRange =>
    setNumber sintRest formatSint .sint sintVal sintRange value option memory
  | _ => .thrown .invalidType (option, memory)

/-- `set(uint_type)` -/
def setUint (value : UInt32) (option : ConfigOption) (memory : Memory) :
    Outcome (ConfigOption × Memory) :=
  match option.valueData with
  | .uintData uintVal _ uintRange =>
    setNumber uintRest formatUint .uint uintVal uintRange value option memory
  | _ => .thrown .invalidType (option, memory)

/-- `set(bool_type)` -/
def setBool (value : Bool) (option : ConfigOption) (memory : Memory) :
    Outcome (ConfigOption × Memory) :=
  match option.valueData with
  | .boolData boolVal _ => option.assign memory boolVal (.bool value)
  | _ => .thrown .invalidType (option, memory)

def reset (option : ConfigOption) : ConfigOption := { option with loaded := false }

def commit (option : ConfigOption) (memory : Memory) : Outcome (ConfigOption × Memory) :=
  if option.loaded then .returned (option, memory)
  else
    match option.valueData with
    | .boolData boolVal boolDefault => option.assign memory boolVal (.bool boolDefault)
    | .sintData sintVal sintDefault _ => option.assign memory sintVal (.sint sintDefault)
    | .uintData uintVal uintDefault _ => option.assign memory uintVal (.uint uintDefault)
    | .stringData stringVal stringDefault _ =>
      option.assign memory stringVal (.string stringDefault)
    | .funData funVal funDefault =>
      match funVal funDefault memory with
      | .returned memory => .returned ({ option with loaded := true }, memory)
      | .thrown exception memory => .thrown exception (option, memory)
      | .killed => .killed

end ConfigOption

/-! ## Texts -/

/-- `Strings::toboolean`; the copy in lower case is dropped, and the text itself compared. -/
def toboolean (str : String) : Except Thrown Bool :=
  if str = "true" ∨ str = "yes" then .ok true
  else if str = "false" ∨ str = "no" then .ok false
  else .error (.invalidValue str)

/-- `Strings::tolong` -/
def tolong (str : String) : Except Thrown Int64 :=
  if CString.numberEnd str.toList = [] then .ok (Int64.ofInt (CString.strtol str.toList))
  else .error (.invalidValue str)

/-- `Strings::toulong` -/
def toulong (str : String) : Except Thrown UInt64 :=
  if CString.numberEnd str.toList = [] then .ok (UInt64.ofNat (CString.strtoul str.toList))
  else .error (.invalidValue str)

/-! ## The options of the module -/

/-- `_map` in the order of its keys, `_syn_map`, and the variables. -/
structure ConfigOptions where
  map : List ConfigOption
  synMap : List (String × String)
  memory : Memory
  ordered : map.Pairwise fun a b => a.myName < b.myName

namespace ConfigOptions

/-- The option that has this name in `_map`. -/
def find (options : ConfigOptions) (name : String) : Option ConfigOption :=
  options.map.find? fun option => option.myName == name

def findOption (options : ConfigOptions) (name : String) : Option ConfigOption :=
  match options.synMap.lookup name with
  | some mainOpt => options.find mainOpt
  | none => options.find name

def insertInOrder (option : ConfigOption) : List ConfigOption → List ConfigOption
  | [] => [option]
  | other :: rest =>
    if option.myName < other.myName then option :: other :: rest
    else other :: insertInOrder option rest

lemma mem_insertInOrder {option x : ConfigOption} {map : List ConfigOption} :
    x ∈ insertInOrder option map ↔ x = option ∨ x ∈ map := by
  induction map with
  | nil => simp [insertInOrder]
  | cons other rest ih =>
    rw [insertInOrder]
    split_ifs
    · simp
    · rw [List.mem_cons, ih, List.mem_cons]
      tauto

lemma insertInOrder_ordered {option : ConfigOption} {map : List ConfigOption}
    (h : map.Pairwise fun a b => a.myName < b.myName)
    (hnew : ∀ x ∈ map, x.myName ≠ option.myName) :
    (insertInOrder option map).Pairwise fun a b => a.myName < b.myName := by
  induction map with
  | nil => exact List.pairwise_singleton _ _
  | cons other rest ih =>
    have hrest := List.pairwise_cons.1 h
    rw [insertInOrder]
    split_ifs with hlt
    · refine List.pairwise_cons.2 ⟨fun x hx => ?_, h⟩
      rcases List.mem_cons.1 hx with rfl | hx
      · exact hlt
      · exact hlt.trans (hrest.1 x hx)
    · refine List.pairwise_cons.2 ⟨fun x hx => ?_, ih hrest.2 fun x hx =>
        hnew x (List.mem_cons_of_mem _ hx)⟩
      rcases mem_insertInOrder.1 hx with rfl | hx
      · exact lt_of_le_of_ne (not_lt.1 hlt) (hnew other List.mem_cons_self)
      · exact hrest.1 x hx

/-- `add`: an option of which the name is taken is not registered. -/
def add (options : ConfigOptions) (option : ConfigOption) : ConfigOptions × Bool :=
  if h : ∀ x ∈ options.map, x.myName ≠ option.myName then
    ({ options with
      map := insertInOrder option options.map
      ordered := insertInOrder_ordered options.ordered h }, true)
  else (options, false)

/-- `synonym` -/
def synonym (options : ConfigOptions) (equivOpt mainOpt : String) : ConfigOptions × Bool :=
  if (options.synMap.lookup equivOpt).isSome then (options, false)
  else ({ options with synMap := (equivOpt, mainOpt) :: options.synMap }, true)

lemma map_ordered {map : List ConfigOption} {f : ConfigOption → ConfigOption}
    (h : map.Pairwise fun a b => a.myName < b.myName) (hf : ∀ x, (f x).myName = x.myName) :
    (map.map f).Pairwise fun a b => a.myName < b.myName := by
  rw [List.pairwise_map]
  simpa only [hf] using h

/-- The entry of `_map` that has this option's name is this option from now on. -/
def put (options : ConfigOptions) (option : ConfigOption) (memory : Memory) : ConfigOptions where
  map := options.map.map fun x => if x.myName = option.myName then option else x
  synMap := options.synMap
  memory := memory
  ordered := map_ordered options.ordered fun x => by
    split_ifs with h
    · exact h.symm
    · rfl

@[simp] lemma put_memory (options : ConfigOptions) (option : ConfigOption) (memory : Memory) :
    (options.put option memory).memory = memory := rfl

/-- The template `set`. -/
def set (options : ConfigOptions) (name : String)
    (setValue : ConfigOption → Memory → Outcome (ConfigOption × Memory)) :
    Outcome ConfigOptions :=
  match options.find name with
  | none => .thrown (.configProcessFailure ("unknown option: " ++ name)) options
  | some option =>
    (setValue option options.memory).map fun (option, memory) => options.put option memory

/-- A conversion that throws leaves nothing to be set. -/
def setConverted {α : Type} (options : ConfigOptions) (name : String) (value : Except Thrown α)
    (setValue : α → ConfigOption → Memory → Outcome (ConfigOption × Memory)) :
    Outcome ConfigOptions :=
  match value with
  | .ok value => options.set name (setValue value)
  | .error exception => .thrown exception options

/-- The branches of `process`, one for each type. -/
def processTyped (options : ConfigOptions) (option : ConfigOption) (value : String) :
    Outcome ConfigOptions :=
  match option.type with
  | .sint =>
    options.setConverted option.myName (toulong value) fun number =>
      ConfigOption.setSint number.toUInt32.toInt32
  | .uint =>
    options.setConverted option.myName (tolong value) fun number =>
      ConfigOption.setUint number.toInt32.toUInt32
  | .bool => options.setConverted option.myName (toboolean value) ConfigOption.setBool
  | .string => options.set option.myName (ConfigOption.setString value)
  | .function => options.set option.myName (ConfigOption.setString value)

def process (options : ConfigOptions) (name value : String) : Outcome ConfigOptions :=
  match options.findOption name with
  | none => .thrown (.configProcessFailure ("unknown option '" ++ name ++ "'")) options
  | some option =>
    match options.processTyped option value with
    | .thrown (.invalidValue _) options =>
      .thrown (.configProcessFailure ("invalid value '" ++ value ++ "' for option '" ++ name ++
        "'")) options
    | outcome => outcome

def reset (options : ConfigOptions) : ConfigOptions :=
  { options with
    map := options.map.map ConfigOption.reset
    ordered := map_ordered options.ordered fun _ => rfl }

def commitLoop : List ConfigOption → ConfigOptions → List String →
    Outcome (ConfigOptions × List String)
  | [], options, msgs => .returned (options, msgs)
  | option :: rest, options, msgs =>
    match option.commit options.memory with
    | .returned (option, memory) => commitLoop rest (options.put option memory) msgs
    | .thrown (.configProcessFailure msg) (option, memory) =>
      commitLoop rest (options.put option memory) (msgs ++ [msg])
    | .thrown exception (option, memory) =>
      .thrown exception (options.put option memory, msgs)
    | .killed => .killed

/-- `commit` with the messages of the options that could not get their defaults. -/
def commit (options : ConfigOptions) : Outcome (ConfigOptions × List String) :=
  commitLoop options.map options []

end ConfigOptions

end Khomp

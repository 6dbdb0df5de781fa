import FreeswitchContrib.Library.CString
import FreeswitchContrib.Library.Surplus

/-!
# `Format`

`FMT(text) % value % … ` writes as `printf` would.  The constructor cuts the text into arguments,
each a piece of text or one conversion; `operator%` takes the arguments up to the next conversion
and prints it with `snprintf` into a buffer, and `str` takes what is left.

The pieces of text are written as they stand, with `%%` for a percent sign; a string is cut where
the buffer ends; and the character NUL adds nothing.

* `Format.construct`, `Format.operatorPercent`, `Format.str` — the code.
* `printf` — what the whole should be.
* `Item` — the parts of a format string, each conversion with a value of a type that it takes.
* `MakesUp` — nothing is lost, or `%%` for `%` makes up for it.
* **`format_expands_iff`** — the expansion is that of `printf` exactly then.
-/

namespace Khomp.Formatting

open CString

/-! ## `Argument` -/

/-- The name of a type, or one of the two texts that stand for none. -/
inductive ArgumentType
  | text
  | any
  | int
  | unsignedInt
  | double
  | float
  | char
  | unsignedChar
  | constCharPtr
  | charPtr
  | constUnsignedCharPtr
  | unsignedCharPtr
deriving DecidableEq

structure Argument where
  fmts : List Char
  types : List ArgumentType
deriving DecidableEq

def Argument.compare (argument : Argument) (type : ArgumentType) : Bool :=
  argument.types.contains type

/-- The values for which `operator%` is called; the last one is a `std::string`. -/
inductive Value
  | int (n : Int32)
  | unsignedInt (n : UInt32)
  | char (c : Char)
  | unsignedChar (c : Char)
  | constCharPtr (s : List Char)
  | charPtr (s : List Char)
  | constUnsignedCharPtr (s : List Char)
  | unsignedCharPtr (s : List Char)
  | string (s : List Char)

/-- The type with which the argument is compared. -/
def Value.type : Value → ArgumentType
  | int _ => .int
  | unsignedInt _ => .unsignedInt
  | char _ => .char
  | unsignedChar _ => .unsignedChar
  | constCharPtr _ => .constCharPtr
  | charPtr _ => .charPtr
  | constUnsignedCharPtr _ => .constUnsignedCharPtr
  | unsignedCharPtr _ => .unsignedCharPtr
  | string _ => .charPtr

def Value.isString : Value → Bool
  | string _ => true
  | _ => false

/-! ## `printf` -/

/-- The conversions, without anything between the percent sign and the letter. -/
inductive Conversion
  | d | i | u | x | o | c | s
deriving DecidableEq

namespace Conversion

def letter : Conversion → Char
  | d => 'd'
  | i => 'i'
  | u => 'u'
  | x => 'x'
  | o => 'o'
  | c => 'c'
  | s => 's'

def ofLetter : Char → Option Conversion
  | 'd' => some d
  | 'i' => some i
  | 'u' => some u
  | 'x' => some x
  | 'o' => some o
  | 'c' => some c
  | 's' => some s
  | _ => none

end Conversion

/-- The bits of a number. -/
def Value.bits : Value → Option UInt32
  | int n => some n.toUInt32
  | unsignedInt n => some n
  | _ => none

def Value.character : Value → Option Char
  | char c | unsignedChar c => some c
  | _ => none

/-- The string that a pointer points to, up to its NUL; `c_str()` is used for a `std::string`. -/
def Value.cString : Value → Option (List Char)
  | constCharPtr s | charPtr s | constUnsignedCharPtr s | unsignedCharPtr s | string s =>
    some (s.takeWhile (· ≠ nul))
  | _ => none

/-- What `printf` writes for a conversion, where the value has a type for it. -/
def Conversion.print (value : Value) : Conversion → Option (List Char)
  | d | i => value.bits.map fun bits => Numeral.ofInt bits.toInt32.toInt
  | u => value.bits.map fun bits => Nat.toDigits 10 bits.toNat
  | x => value.bits.map fun bits => Nat.toDigits 16 bits.toNat
  | o => value.bits.map fun bits => Nat.toDigits 8 bits.toNat
  | c => value.character.map fun c => [c]
  | s => value.cString

/-- `printf`, for a text with these conversions. -/
def printf : List Char → List Value → Option (List Char)
  | [], _ => some []
  | c :: fmt, values =>
    if c ≠ '%' then (printf fmt values).map (c :: ·)
    else
      match fmt, values with
      | '%' :: fmt, values => (printf fmt values).map ('%' :: ·)
      | letter :: fmt, value :: values =>
        ((Conversion.ofLetter letter).bind (Conversion.print value)).bind fun text =>
          (printf fmt values).map (text ++ ·)
      | _, _ => none

/-- The string in a buffer of this size. -/
def snprintf (size : ℕ) (fmt : List Char) (values : List Value) : Option (List Char) :=
  (printf fmt values).map fun text => (text.take (size - 1)).takeWhile (· ≠ nul)

/-! ## The constructor -/

/-- The types that go with the letter at the end of a conversion. -/
def conversionTypes : Char → Option (List ArgumentType)
  | 'd' | 'i' => some [.int, .unsignedInt]
  | 'o' | 'u' | 'x' | 'X' => some [.unsignedInt, .int]
  | 'e' | 'E' | 'f' | 'F' | 'g' | 'G' | 'a' | 'A' => some [.double, .float]
  | 'c' => some [.char, .unsignedChar]
  | 's' => some [.constCharPtr, .charPtr, .constUnsignedCharPtr, .unsignedCharPtr]
  | 'p' | 'C' | 'S' | 'n' | 'm' => some [.any]
  | _ => none

/-- What is left of a text behind the loops. -/
def lastArgument (text : List Char) : List Argument :=
  if text = [] then [] else [⟨text, [.text]⟩]

mutual

/-- The loop over the text; `arg` is empty here. -/
def outerLoop (text : List Char) : List Char → List Argument
  | [] => lastArgument text
  | c :: ptr =>
    if c ≠ '%' then outerLoop (text ++ [c]) ptr
    else
      match ptr with
      | '%' :: ptr => outerLoop (text ++ ['%', '%']) ptr
      | ptr => ⟨text, [.text]⟩ :: innerLoop ['%'] ptr

/-- The loop over a conversion; `text` is empty here. -/
def innerLoop (arg : List Char) : List Char → List Argument
  | [] => lastArgument arg
  | ' ' :: ptr => ⟨arg ++ [' '], [.text]⟩ :: outerLoop [] ptr
  | '%' :: ptr => ⟨arg, [.text]⟩ :: innerLoop ['%'] ptr
  | c :: ptr =>
    match conversionTypes c with
    | some types => ⟨arg ++ [c], types⟩ :: outerLoop [] ptr
    | none => innerLoop (arg ++ [c]) ptr

end

structure Format where
  valid : Bool
  exception : Bool
  result : List Char
  args : List Argument

def Format.construct (fmt : List Char) (exception : Bool) : Format where
  valid := true
  exception := exception
  result := []
  args := outerLoop [] fmt

/-! ## The operator and `str` -/

/-- How a call ends. -/
inductive Outcome (α : Type)
  | returned (value : α)
  /-- `InvalidFormat` is thrown -/
  | thrown
  /-- `snprintf` is called with something that is not described here -/
  | unknown

def Outcome.andThen {α β : Type} (call : Outcome α) (next : α → Outcome β) : Outcome β :=
  match call with
  | returned value => next value
  | thrown => .thrown
  | unknown => .unknown

/-- The loop over the pieces of text, up to the first argument that is none. -/
def nextArgument (result : List Char) :
    List Argument → List Char × Option (Argument × List Argument)
  | [] => (result, none)
  | top :: args =>
    if top.compare .text then nextArgument (result ++ top.fmts) args else (result, some (top, args))

def invalidMsg : List Char := "** Invalid Format **".toList

namespace Format

def invalid (format : Format) : Outcome Format :=
  if format.exception then .thrown else .returned { format with valid := false }

/-- `operator%`; the one for `std::string &` does not look for an argument of any type. -/
def operatorPercent (value : Value) (format : Format) : Outcome Format :=
  match nextArgument format.result format.args with
  | (result, none) => invalid { format with result := result, args := [] }
  | (result, some (top, args)) =>
    if (!value.isString && top.compare .any) || top.compare value.type then
      match snprintf 1000 top.fmts [value] with
      | some tmp => .returned { format with result := result ++ tmp, args := args }
      | none => .unknown
    else invalid { format with result := result, args := args }

def str (format : Format) : Outcome (List Char × Format) :=
  if format.valid then
    match nextArgument format.result format.args with
    | (result, none) => .returned (result, { format with result := result, args := [] })
    | (_, some (_, args)) =>
      if format.exception then .thrown
      else .returned (invalidMsg, { format with valid := false, result := invalidMsg, args := args })
  else if format.exception then .thrown
  else .returned (invalidMsg, { format with result := invalidMsg })

/-- `% value % … ` -/
def applyAll : List Value → Format → Outcome Format
  | [], format => .returned format
  | value :: values, format => (format.operatorPercent value).andThen (applyAll values)

end Format

/-! ## The statement -/

/-- `str` gives what `printf` writes. -/
def Expands (exception : Bool) (fmt : List Char) (values : List Value) : Prop :=
  ∃ text format, ((Format.construct fmt exception).applyAll values).andThen Format.str =
      .returned (text, format) ∧
    printf fmt values = some text

/-- The parts of a format string, with the values of its conversions. -/
inductive Item
  | literal (c : Char) (h : c ≠ '%' ∧ c ≠ nul)
  | percent
  | conversion (kind : Conversion) (value : Value) (h : (kind.print value).isSome)

namespace Item

def format : Item → List Char
  | literal c _ => [c]
  | percent => ['%', '%']
  | conversion kind _ _ => ['%', kind.letter]

def value? : Item → Option Value
  | conversion _ value _ => some value
  | _ => none

/-- What `printf` writes for it. -/
def expansion : Item → List Char
  | literal c _ => [c]
  | percent => ['%']
  | conversion kind value h => (kind.print value).get h

/-- What of a string the buffer does not hold. -/
def cut : Item → List Char
  | conversion .s value _ => (value.cString.getD []).drop 999
  | _ => []

/-- The character NUL is to be written. -/
def IsNul : Item → Prop
  | conversion .c value _ => value.character = some nul
  | _ => False

/-- What is written of it, and by how much that is more than the expansion. -/
def part (item : Item) : Surplus.Part Char where
  kept := item.expansion.take 999
  surplus := match item with
    | percent => 1
    | item => -item.cut.length

end Item

def formatString (items : List Item) : List Char := items.flatMap Item.format

def arguments (items : List Item) : List Value := items.filterMap Item.value?

/-- Nothing is lost but percent signs of long strings, and wherever something else comes, as many of
them are lost as were written twice. -/
structure MakesUp (items : List Item) : Prop where
  noNul : ∀ item ∈ items, ¬ item.IsNul
  cut : ∀ item ∈ items, ∀ c ∈ item.cut, c = '%'
  balanced : Surplus.Balanced '%' 0 (items.map Item.part)

/-! ## What a conversion writes -/

section

variable {kind : Conversion} {value : Value} {item : Item} {items : List Item} {text : List Char}

lemma nul_ne_digitChar : ∀ n < 16, nul ≠ Nat.digitChar n := by decide

lemma nul_notMem_toDigits {b : ℕ} (hb : 1 < b) (hle : b ≤ 16) (n : ℕ) : nul ∉ Nat.toDigits b n := by
  induction n using Nat.strong_induction_on with
  | _ n ih =>
    rw [Nat.toDigits_eq_if hb]
    split_ifs with hlt
    · exact fun h => nul_ne_digitChar n (hlt.trans_le hle) (List.mem_singleton.mp h)
    · intro h
      rcases List.mem_append.mp h with h | h
      · exact ih (n / b) (Nat.div_lt_self (by omega) hb) h
      · have hdigit : n % b < 16 := (Nat.mod_lt n (by omega)).trans_le hle
        exact nul_ne_digitChar _ hdigit (List.mem_singleton.mp h)

lemma length_toDigits_le {b n : ℕ} (hb : 1 < b) (hn : n < 2 ^ 32) :
    (Nat.toDigits b n).length ≤ 32 :=
  (Nat.length_toDigits_le_iff hb (by decide)).mpr
    (hn.trans_le (Nat.pow_le_pow_left hb 32))

/-- A text that is neither cut nor ended by a NUL. -/
def Short (text : List Char) : Prop := nul ∉ text ∧ text.length ≤ 999

lemma short_toDigits {b n : ℕ} (hb : 1 < b) (hle : b ≤ 16) (hn : n < 2 ^ 32) :
    Short (Nat.toDigits b n) :=
  ⟨nul_notMem_toDigits hb hle n, (length_toDigits_le hb hn).trans (by decide)⟩

lemma short_ofInt (n : Int32) : Short (Numeral.ofInt n.toInt) := by
  have hlt := n.toInt_lt
  have hge := n.le_toInt
  cases hn : n.toInt with
  | ofNat m =>
    rw [hn, Int.ofNat_eq_natCast] at hlt
    exact short_toDigits (by decide) (by decide) (by omega)
  | negSucc m =>
    rw [hn] at hge
    have hm : m + 1 < 2 ^ 32 := by omega
    refine ⟨?_, ?_⟩
    · rw [Numeral.ofInt, List.mem_cons]
      rintro (h | h)
      · cases h
      · exact nul_notMem_toDigits (by decide) (by decide) _ h
    · have hlength := length_toDigits_le (b := 10) (by decide) hm
      rw [Numeral.ofInt, List.length_cons]
      omega

/-- The digits of a number. -/
lemma short_of_bits {digits : UInt32 → List Char} (hdigits : ∀ bits, Short (digits bits))
    (h : value.bits.map digits = some text) : Short text := by
  obtain ⟨bits, -, rfl⟩ := Option.map_eq_some_iff.mp h
  exact hdigits bits

/-- Only a string can be cut, and only a character can be a NUL. -/
lemma short_of_print (hs : kind ≠ .s) (hc : kind ≠ .c) (h : kind.print value = some text) :
    Short text := by
  cases kind with
  | d | i => exact short_of_bits (fun bits => short_ofInt bits.toInt32) h
  | u | x | o =>
    exact short_of_bits (fun bits => short_toDigits (by decide) (by decide) bits.toNat_lt) h
  | c => exact absurd rfl hc
  | s => exact absurd rfl hs

lemma nul_notMem_takeWhile (s : List Char) : nul ∉ s.takeWhile (· ≠ nul) := by
  intro hmem
  have hne := List.mem_takeWhile_imp hmem
  exact of_decide_eq_true hne rfl

lemma nul_notMem_cString (h : value.cString = some text) : nul ∉ text := by
  cases value with
  | int n | unsignedInt n => cases h
  | char c | unsignedChar c => cases h
  | constCharPtr s | charPtr s | constUnsignedCharPtr s | unsignedCharPtr s | string s =>
    cases h
    exact nul_notMem_takeWhile s

lemma print_eq (h : (kind.print value).isSome) :
    kind.print value = some (Item.conversion kind value h).expansion :=
  (Option.some_get h).symm

/-- What the buffer does not hold. -/
lemma drop_expansion (item : Item) : item.expansion.drop 999 = item.cut := by
  cases item with
  | literal c h => rfl
  | percent => rfl
  | conversion kind value h =>
    have hprint := print_eq h
    cases kind with
    | s =>
      have hstring : value.cString = some _ := hprint
      rw [Item.cut, hstring]
      rfl
    | c =>
      obtain ⟨c, -, htext⟩ := Option.map_eq_some_iff.mp hprint
      rw [← htext]
      rfl
    | d | i | u | x | o =>
      exact List.drop_eq_nil_of_le (short_of_print (by decide) (by decide) hprint).2

lemma nul_mem_expansion_iff (item : Item) : nul ∈ item.expansion ↔ item.IsNul := by
  cases item with
  | literal c h => exact iff_of_false (fun hmem => h.2 (List.mem_singleton.mp hmem).symm) id
  | percent => exact iff_of_false (by decide) id
  | conversion kind value h =>
    have hprint := print_eq h
    cases kind with
    | s => exact iff_of_false (nul_notMem_cString hprint) id
    | c =>
      obtain ⟨c, hc, htext⟩ := Option.map_eq_some_iff.mp hprint
      rw [← htext, Item.IsNul, hc, List.mem_singleton, Option.some_inj, eq_comm]
    | d | i | u | x | o =>
      exact iff_of_false (short_of_print (by decide) (by decide) hprint).1 id

/-! ## What is written -/

/-- What the code writes of an item. -/
def Item.written : Item → List Char
  | literal c _ => [c]
  | percent => ['%', '%']
  | item => (item.expansion.take 999).takeWhile (· ≠ nul)

lemma nul_notMem_written (item : Item) : nul ∉ item.written := by
  cases item with
  | literal c h => exact fun hmem => h.2 (List.mem_singleton.mp hmem).symm
  | percent => decide
  | conversion kind value h => exact nul_notMem_takeWhile _

/-- Without a NUL there is only the surplus. -/
lemma written_eq (h : ¬ item.IsNul) :
    item.written = item.part.kept ++ Surplus.marks '%' item.part.surplus := by
  cases item with
  | literal c h => rfl
  | percent => rfl
  | conversion kind value hsome =>
    have hnul : nul ∉ (Item.conversion kind value hsome).expansion.take 999 :=
      fun hmem => h ((nul_mem_expansion_iff _).mp (List.mem_of_mem_take hmem))
    have hnone : Surplus.marks '%' (-((Item.conversion kind value hsome).cut.length : ℤ)) = [] := by
      rw [Surplus.marks, Int.toNat_neg_natCast]
      rfl
    show List.takeWhile _ _ =
      _ ++ Surplus.marks '%' (-((Item.conversion kind value hsome).cut.length : ℤ))
    rw [hnone, List.append_nil]
    exact List.takeWhile_eq_self_iff.mpr fun c hc => decide_eq_true (ne_of_mem_of_not_mem hc hnul)

/-- If only marks are cut, they are the surplus of the expansion. -/
lemma expansion_eq (h : ∀ c ∈ item.cut, c = '%') :
    item.expansion = item.part.kept ++ Surplus.marks '%' (-item.part.surplus) := by
  cases item with
  | literal c h => rfl
  | percent => rfl
  | conversion kind value hsome =>
    show _ = _ ++ Surplus.marks '%' (- -((Item.conversion kind value hsome).cut.length : ℤ))
    rw [neg_neg, Surplus.marks, Int.toNat_natCast, ← List.eq_replicate_of_mem h, ← drop_expansion]
    exact (List.take_append_drop 999 _).symm

/-! ## The run -/

/-- The types of the values for a conversion. -/
def Conversion.types (kind : Conversion) : List ArgumentType := (conversionTypes kind.letter).getD []

/-- What the constructor makes of the items, with this text before them. -/
def queue (text : List Char) : List Item → List Argument
  | [] => lastArgument text
  | .conversion kind _ _ :: items =>
    ⟨text, [.text]⟩ :: ⟨['%', kind.letter], kind.types⟩ :: queue [] items
  | item :: items => queue (text ++ item.format) items

lemma outerLoop_cons {c : Char} (h : c ≠ '%') (text ptr : List Char) :
    outerLoop text (c :: ptr) = outerLoop (text ++ [c]) ptr :=
  (outerLoop.eq_def text (c :: ptr)).trans (if_pos h)

lemma outerLoop_conversion (text : List Char) (kind : Conversion) (ptr : List Char) :
    outerLoop text ('%' :: kind.letter :: ptr) =
      ⟨text, [.text]⟩ :: ⟨['%', kind.letter], kind.types⟩ :: outerLoop [] ptr := by
  cases kind <;> rfl

/-- The loops find the items again. -/
lemma outerLoop_formatString (items : List Item) (text : List Char) :
    outerLoop text (formatString items) = queue text items := by
  induction items generalizing text with
  | nil => rfl
  | cons item items ih =>
    cases item with
    | literal c h =>
      show outerLoop text (c :: formatString items) = queue (text ++ [c]) items
      rw [outerLoop_cons h.1]
      exact ih _
    | percent =>
      show outerLoop text ('%' :: '%' :: formatString items) = queue (text ++ ['%', '%']) items
      rw [outerLoop, if_neg (not_not_intro rfl)]
      exact ih _
    | conversion kind value h =>
      show outerLoop text ('%' :: kind.letter :: formatString items) = _
      rw [outerLoop_conversion, ih]
      rfl

/-- The value has a type that goes with the letter. -/
lemma compare_type (h : (kind.print value).isSome) :
    (⟨['%', kind.letter], kind.types⟩ : Argument).compare value.type = true := by
  cases kind <;> cases value <;> first | rfl | cases h

lemma not_compare_text (kind : Conversion) :
    (⟨['%', kind.letter], kind.types⟩ : Argument).compare .text = false := by
  cases kind <;> rfl

lemma printf_cons {c : Char} (h : c ≠ '%') (fmt : List Char) (values : List Value) :
    printf (c :: fmt) values = (printf fmt values).map (c :: ·) :=
  (printf.eq_def (c :: fmt) values).trans (if_pos h)

lemma printf_conversion (h : kind.print value = some text) (fmt : List Char) (values : List Value) :
    printf ('%' :: kind.letter :: fmt) (value :: values) = (printf fmt values).map (text ++ ·) := by
  have hletter : Conversion.ofLetter kind.letter = some kind := by cases kind <;> rfl
  have hbind : (Conversion.ofLetter kind.letter).bind (Conversion.print value) = some text := by
    rw [hletter]
    exact h
  have hcons : printf ('%' :: kind.letter :: fmt) (value :: values) =
      ((Conversion.ofLetter kind.letter).bind (Conversion.print value)).bind fun text =>
        (printf fmt values).map (text ++ ·) := by
    cases kind <;> rfl
  rw [hcons, hbind, Option.bind_some]

/-- `printf` writes the expansions. -/
lemma printf_items (items : List Item) :
    printf (formatString items) (arguments items) = some (items.flatMap Item.expansion) := by
  induction items with
  | nil => rfl
  | cons item items ih =>
    cases item with
    | literal c h =>
      show printf (c :: formatString items) (arguments items) = _
      rw [printf_cons h.1, ih]
      rfl
    | percent =>
      show printf ('%' :: '%' :: formatString items) (arguments items) = _
      show (printf (formatString items) (arguments items)).map _ = _
      rw [ih]
      rfl
    | conversion kind value h =>
      show printf ('%' :: kind.letter :: formatString items) (value :: arguments items) = _
      rw [printf_conversion (print_eq h), ih]
      rfl

lemma snprintf_conversion (h : (kind.print value).isSome) :
    snprintf 1000 ['%', kind.letter] [value] = some (Item.conversion kind value h).written := by
  rw [snprintf, printf_conversion (print_eq h)]
  show some (List.takeWhile _ (List.take 999 (_ ++ []))) = _
  rw [List.append_nil]
  rfl

/-- The operator writes the text before the conversion, and the conversion. -/
lemma operatorPercent_conversion (exception : Bool) (result text : List Char)
    (h : (kind.print value).isSome) (args : List Argument) :
    Format.operatorPercent value
        ⟨true, exception, result,
          ⟨text, [.text]⟩ :: ⟨['%', kind.letter], kind.types⟩ :: args⟩ =
      .returned ⟨true, exception, result ++ text ++ (Item.conversion kind value h).written, args⟩ := by
  have hnext : nextArgument result (⟨text, [.text]⟩ :: ⟨['%', kind.letter], kind.types⟩ :: args) =
      (result ++ text, some (⟨['%', kind.letter], kind.types⟩, args)) := by
    show nextArgument (result ++ text) (⟨['%', kind.letter], kind.types⟩ :: args) = _
    rw [nextArgument, not_compare_text, if_neg Bool.false_ne_true]
  rw [Format.operatorPercent, hnext]
  dsimp only
  rw [if_pos (by rw [compare_type h, Bool.or_true]), snprintf_conversion h]

/-- **What the calls write.** -/
lemma run_items (exception : Bool) (items : List Item) (result text : List Char) :
    (Format.applyAll (arguments items) ⟨true, exception, result, queue text items⟩).andThen
        Format.str =
      .returned (result ++ text ++ items.flatMap Item.written,
        ⟨true, exception, result ++ text ++ items.flatMap Item.written, []⟩) := by
  induction items generalizing result text with
  | nil =>
    have hnext : nextArgument result (lastArgument text) = (result ++ text, none) := by
      rw [lastArgument]
      by_cases htext : text = []
      · rw [if_pos htext, htext, List.append_nil]
        rfl
      · rw [if_neg htext]
        rfl
    show Format.str ⟨true, exception, result, lastArgument text⟩ = _
    rw [Format.str, if_pos rfl, hnext, List.flatMap_nil, List.append_nil]
  | cons item items ih =>
    cases item with
    | literal c h =>
      rw [List.flatMap_cons, ← List.append_assoc, List.append_assoc result]
      exact ih result (text ++ [c])
    | percent =>
      rw [List.flatMap_cons, ← List.append_assoc, List.append_assoc result]
      exact ih result (text ++ ['%', '%'])
    | conversion kind value h =>
      show Outcome.andThen (Outcome.andThen (Format.operatorPercent value ⟨true, exception, result,
        ⟨text, [.text]⟩ :: ⟨['%', kind.letter], kind.types⟩ :: queue [] items⟩) _) _ = _
      rw [operatorPercent_conversion exception result text h, List.flatMap_cons,
        ← List.append_assoc]
      refine (ih _ []).trans ?_
      rw [List.append_nil]

lemma expands_iff (exception : Bool) (items : List Item) :
    Expands exception (formatString items) (arguments items) ↔
      items.flatMap Item.written = items.flatMap Item.expansion := by
  have hrun := run_items exception items [] []
  rw [List.nil_append, List.nil_append, ← outerLoop_formatString] at hrun
  constructor
  · rintro ⟨text, format, hreturned, hprintf⟩
    cases hrun.symm.trans hreturned
    exact Option.some_inj.mp ((hprintf.symm.trans (printf_items items)))
  · intro h
    exact ⟨_, _, hrun, (printf_items items).trans (congrArg some h.symm)⟩

/-! ## When it is the expansion -/

/-- The two texts as pieces with a surplus. -/
lemma flatMap_eq (hnul : ∀ item ∈ items, ¬ item.IsNul)
    (hcut : ∀ item ∈ items, ∀ c ∈ item.cut, c = '%') :
    items.flatMap Item.written = Surplus.left '%' (items.map Item.part) ∧
      items.flatMap Item.expansion = Surplus.right '%' (items.map Item.part) := by
  rw [Surplus.left, Surplus.right, List.flatMap_map, List.flatMap_map]
  exact ⟨List.flatMap_congr fun item hmem => written_eq (hnul item hmem),
    List.flatMap_congr fun item hmem => expansion_eq (hcut item hmem)⟩

/-- A character other than the percent sign is not written twice. -/
lemma count_expansion {c : Char} (hc : c ≠ '%') (hnul : ∀ item ∈ items, ¬ item.IsNul) :
    (items.flatMap Item.expansion).count c =
      (items.flatMap Item.written).count c + (items.flatMap Item.cut).count c := by
  induction items with
  | nil => rfl
  | cons item items ih =>
    obtain ⟨hitem, hitems⟩ := List.forall_mem_cons.mp hnul
    have hmarks : (Surplus.marks '%' item.part.surplus).count c = 0 :=
      List.count_eq_zero_of_not_mem fun hmem => hc (List.eq_of_mem_replicate hmem)
    have hwritten : item.written.count c = (item.expansion.take 999).count c := by
      rw [written_eq hitem, List.count_append, hmarks]
      rfl
    have hexpansion : item.expansion.count c =
        (item.expansion.take 999).count c + item.cut.count c := by
      rw [← drop_expansion, ← List.count_append, List.take_append_drop]
    rw [List.flatMap_cons, List.flatMap_cons, List.flatMap_cons, List.count_append,
      List.count_append, List.count_append, ih hitems, hwritten, hexpansion]
    omega

/-- There is nothing to make up for without `%%`, without NUL, and with strings that the buffer
holds. -/
lemma makesUp_of_kept (hpercent : Item.percent ∉ items) (hnul : ∀ item ∈ items, ¬ item.IsNul)
    (hcut : ∀ item ∈ items, item.cut = []) : MakesUp items := by
  refine ⟨hnul, fun item hmem c hc => ?_, Surplus.balanced_of_forall fun part hpart => ?_⟩
  · rw [hcut item hmem] at hc
    cases hc
  · obtain ⟨item, hmem, rfl⟩ := List.mem_map.mp hpart
    have hitem := hcut item hmem
    cases item with
    | literal c h => rfl
    | percent => exact absurd hmem hpercent
    | conversion kind value h =>
      show -(List.length _ : ℤ) = 0
      rw [hitem]
      rfl

/-- **`Format` writes what `printf` writes exactly where nothing is lost, or is made up for.** -/
theorem format_expands_iff (exception : Bool) (items : List Item) :
    Expands exception (formatString items) (arguments items) ↔ MakesUp items := by
  rw [expands_iff]
  constructor
  · intro h
    have hnul : ∀ item ∈ items, ¬ item.IsNul := by
      intro item hmem hitem
      have hmem : nul ∈ items.flatMap Item.expansion :=
        List.mem_flatMap.mpr ⟨item, hmem, (nul_mem_expansion_iff item).mpr hitem⟩
      rw [← h] at hmem
      obtain ⟨other, -, hother⟩ := List.mem_flatMap.mp hmem
      exact nul_notMem_written other hother
    have hcut : ∀ item ∈ items, ∀ c ∈ item.cut, c = '%' := by
      intro item hmem c hcmem
      by_contra hc
      have hcount := count_expansion hc hnul
      rw [h, Nat.left_eq_add, List.count_eq_zero] at hcount
      exact hcount (List.mem_flatMap.mpr ⟨item, hmem, hcmem⟩)
    obtain ⟨hleft, hright⟩ := flatMap_eq hnul hcut
    rw [hleft, hright] at h
    exact ⟨hnul, hcut, (Surplus.left_eq_right_iff _ 0).mp h⟩
  · rintro ⟨hnul, hcut, hbalanced⟩
    obtain ⟨hleft, hright⟩ := flatMap_eq hnul hcut
    rw [hleft, hright]
    exact (Surplus.left_eq_right_iff _ 0).mpr hbalanced

end

/-- The percent sign is written twice. -/
theorem doubled_percent_sign :
    ¬ Expands false (formatString [.percent]) (arguments [.percent]) := by
  rintro ⟨text, format, hrun, hprintf⟩
  cases hrun
  cases hprintf

end Khomp.Formatting

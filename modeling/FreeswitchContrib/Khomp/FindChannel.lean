import FreeswitchContrib.Library.CString

/-!
# Which channel `find_channel` takes

The dial string names a board and a channel, by their numbers or as the first that is free, from
below (`A`) or from above (`a`).  The upper bounds of the loops are counts, and the loops from below
include them, so that they end at a board or at a channel that is not there; and the channel is read
from the part of the string that names the board.

* `findChannel` — the function, with what it asks the library for.
* `firstAvailable` — the first free channel without a session, in the order of the request.
* `Allocates` — that channel is taken, or there is none; and the mutex is given back.
* `Works` — where the loops come to it.
* **`find_channel_allocates_iff`** — a channel is allocated so exactly where they do.
-/

namespace Khomp.FindChannel

open CString

abbrev Text := List Char

/-! ## The boards -/

/-- The boards, and which channels have the call status `kcsFree`. -/
structure Boards where
  /-- how many channels each board has -/
  counts : List ℕ
  callFree : ℕ → ℕ → Bool
  /-- the library counts in `int32` -/
  fits : ∀ n ∈ counts.length :: counts, n < 2 ^ 31

namespace Boards

def deviceCount (boards : Boards) : ℕ := boards.counts.length

/-- `channel_count`, which throws for a board that is not there. -/
def channelCount (boards : Boards) (dev : ℕ) : Option ℕ := boards.counts[dev]?

def validChannel (boards : Boards) (dev obj : ℕ) : Bool := (boards.channelCount dev).any (obj < ·)

end Boards

/-- The session of the `KhompPvt` of each channel. -/
abbrev Sessions (Session : Type) := ℕ → ℕ → Option Session

/-- What the library is asked for. -/
inductive Query
  | channelCount (dev : ℕ)
  | channel (dev obj : ℕ)

/-- How a loop ends. -/
inductive Outcome
  | found (dev obj : ℕ)
  | exhausted
  /-- the function returns NULL at once -/
  | aborted
  /-- an exception leaves the function -/
  | thrown

structure Search where
  queries : List Query
  outcome : Outcome

/-- The search after these queries. -/
def Search.after (queries : List Query) (search : Search) : Search :=
  { search with queries := queries ++ search.queries }

/-! ## `find_channel` -/

/-- What `argv[0]` and `argv[1]` select. -/
structure Selection where
  boardLow : ℤ
  boardHigh : ℤ
  reverseBoards : Bool
  firstChannel : Bool
  reverseChannels : Bool
  channelLow : ℤ
  channelHigh : ℤ

/-- The part begins with `A` or `a`. -/
def isFirst (arg : Text) : Bool := arg.head? = some 'A' || arg.head? = some 'a'

def isReverse (arg : Text) : Bool := arg.head? = some 'a'

def select (boards : Boards) (board channel : Text) : Selection :=
  let boardLow := if isFirst board then 0 else atoi board
  { boardLow := boardLow
    boardHigh := if isFirst board then boards.deviceCount else boardLow
    reverseBoards := isReverse board
    firstChannel := isFirst channel
    reverseChannels := isReverse channel
    -- the channel comes from the part of the board
    channelLow := if isFirst channel then 0 else atoi board
    channelHigh := if isFirst channel then 0 else boardLow }

/-- The indices of a loop: from below with the upper bound, from above without it. -/
def indices (reverse : Bool) (low high : ℕ) : List ℕ :=
  if reverse then (List.range' low (high - low)).reverse else List.range' low (high + 1 - low)

section

variable {Session : Type} (boards : Boards) (sessions : Sessions Session)

/-- The loop over the channels of a board; `k3lGetDeviceStatus` succeeds for a channel that is
there. -/
def channelLoop (dev : ℕ) : List ℕ → Search
  | [] => ⟨[], .exhausted⟩
  | obj :: rest =>
    if boards.validChannel dev obj = false then ⟨[.channel dev obj], .aborted⟩
    else if boards.callFree dev obj && (sessions dev obj).isNone then
      ⟨[.channel dev obj], .found dev obj⟩
    else (channelLoop dev rest).after [.channel dev obj]

/-- One turn of the loop over the boards. -/
def boardBody (selection : Selection) (dev : ℕ) : Search :=
  if selection.firstChannel = false ∧ selection.channelLow < 0 then ⟨[], .aborted⟩
  else
    match boards.channelCount dev with
    | none => ⟨[.channelCount dev], .thrown⟩
    | some count =>
      if selection.firstChannel then
        (channelLoop boards sessions dev (indices selection.reverseChannels 0 count)).after
          [.channelCount dev]
      else if (count : ℤ) < selection.channelHigh then ⟨[.channelCount dev], .aborted⟩
      else
        (channelLoop boards sessions dev (indices selection.reverseChannels
          selection.channelLow.toNat selection.channelHigh.toNat)).after [.channelCount dev]

/-- The loop over the boards. -/
def boardLoop (selection : Selection) : List ℕ → Search
  | [] => ⟨[], .exhausted⟩
  | dev :: rest =>
    let body := boardBody boards sessions selection dev
    match body.outcome with
    | .exhausted => (boardLoop selection rest).after body.queries
    | _ => body

/-- `switch_call_cause_t` -/
inductive Cause
  | success
  | normalCircuitCongestion
  | destinationOutOfOrder

structure Result (Session : Type) where
  /-- the function returns, and no exception leaves it -/
  returned : Bool
  pvt : Option (ℕ × ℕ)
  cause : Cause
  sessions : Sessions Session
  /-- `_pvts_mutex` is still locked -/
  locked : Bool
  queries : List Query

/-- The new session is that of the channel. -/
def mark (newSession : Session) : Option (ℕ × ℕ) → Sessions Session
  | none => sessions
  | some (dev, obj) => fun dev' obj' =>
    if dev' = dev ∧ obj' = obj then some newSession else sessions dev' obj'

/-- What the function returns after its loops. -/
def finish (newSession : Session) (search : Search) : Result Session :=
  match search.outcome with
  | .found dev obj =>
    ⟨true, some (dev, obj), .success, mark sessions newSession (some (dev, obj)), false,
      search.queries⟩
  | .exhausted => ⟨true, none, .normalCircuitCongestion, sessions, false, search.queries⟩
  | .aborted => ⟨true, none, .destinationOutOfOrder, sessions, false, search.queries⟩
  | .thrown => ⟨false, none, .destinationOutOfOrder, sessions, true, search.queries⟩

/-- `KhompPvt::find_channel`; `separate` is `switch_separate_string` at `/`, into three parts. -/
def findChannel (separate : Text → List Text) (allocationString : Text) (newSession : Session) :
    Result Session :=
  let failed := ⟨true, none, .destinationOutOfOrder, sessions, false, []⟩
  match separate allocationString with
  | board :: channel :: _ :: _ =>
    let selection := select boards board channel
    if selection.boardLow < 0 ∨ (boards.deviceCount : ℤ) < selection.boardHigh then failed
    else
      finish sessions newSession (boardLoop boards sessions selection
        (indices selection.reverseBoards selection.boardLow.toNat selection.boardHigh.toNat))
  | _ => failed

end

/-! ## The statement -/

/-- What a part of the dial string asks for. -/
inductive Choice
  | index (n : ℕ)
  | lowestFirst
  | highestFirst

/-- The part says so. -/
def Choice.Denotes (text : Text) : Choice → Prop
  | index n => Numeral.decimal text = some n
  | lowestFirst => text = ['A']
  | highestFirst => text = ['a']

/-- A board that is named is there. -/
def Choice.InRange (count : ℕ) : Choice → Prop
  | index n => n < count
  | _ => True

/-- The boards or channels in the order of the request. -/
def Choice.order (count : ℕ) : Choice → List ℕ
  | index n => [n]
  | lowestFirst => List.range count
  | highestFirst => (List.range count).reverse

section

variable {Session : Type} (boards : Boards) (sessions : Sessions Session)

/-- A free channel without a session. -/
def available (dev obj : ℕ) : Bool :=
  boards.validChannel dev obj && (boards.callFree dev obj && (sessions dev obj).isNone)

/-- The first one of a board. -/
def firstOfBoard (channel : Choice) (dev : ℕ) : Option (ℕ × ℕ) :=
  ((channel.order ((boards.channelCount dev).getD 0)).find? (available boards sessions dev)).map
    (dev, ·)

/-- The first one of all boards. -/
def firstAvailable (board channel : Choice) : Option (ℕ × ℕ) :=
  (board.order boards.deviceCount).findSome? (firstOfBoard boards sessions channel)

def Query.Exists : Query → Prop
  | .channelCount dev => dev < boards.deviceCount
  | .channel dev obj => boards.validChannel dev obj

/-- The first available channel is returned and marked, or NULL where there is none; the library is
asked for what is there, and the mutex is given back. -/
structure Allocates (board channel : Choice) (newSession : Session) (result : Result Session) :
    Prop where
  pvt : result.pvt = firstAvailable boards sessions board channel
  cause : result.cause =
    if (firstAvailable boards sessions board channel).isSome then .success
    else .normalCircuitCongestion
  marked : result.sessions =
    mark sessions newSession (firstAvailable boards sessions board channel)
  returned : result.returned
  released : result.locked = false
  queries : ∀ query ∈ result.queries, query.Exists boards

/-- The channel that is looked at where a number is asked for. -/
def Choice.number : Choice → ℕ
  | index n => n
  | _ => 0

/-- Where a channel is asked for by its number: it is the one that is looked at, and it is available
on a board that comes before all boards without it; or it is not, and neither is the other one, and
the loop over the boards ends. -/
def WorksByNumber (board : Choice) (number : ℕ) : Prop :=
  (board.number = number ∧ ∃ before dev after, board.order boards.deviceCount =
      before ++ dev :: after ∧ available boards sessions dev number ∧
        ∀ dev ∈ before, boards.validChannel dev number) ∨
    (board ≠ .lowestFirst ∧ ∀ dev ∈ board.order boards.deviceCount,
      boards.validChannel dev board.number ∧ available boards sessions dev board.number = false ∧
        available boards sessions dev number = false)

/-- Where the loops come to the first available channel: from below they have to find one, on the
first board if the channels are counted from below. -/
def Works (board : Choice) : Choice → Prop
  | .index number => WorksByNumber boards sessions board number
  | .lowestFirst =>
    match board.order boards.deviceCount with
    | [] => board ≠ .lowestFirst
    | dev :: _ => ∃ obj, available boards sessions dev obj
  | .highestFirst => board = .lowestFirst → ∃ dev obj, available boards sessions dev obj

end

/-! ## What the library is asked for -/

section

variable {Session : Type} {boards : Boards} {sessions : Sessions Session} {dev obj n : ℕ}
  {selection : Selection} {devs objs : List ℕ} {search : Search} {queries : List Query}
  {board channel : Choice} {text : Text}

/-- The loop ends where it should. -/
def Outcome.Ends : Outcome → Prop
  | found _ _ | exhausted => True
  | aborted | thrown => False

/-- A search that ends where it should has asked for what is there. -/
def Search.Careful (boards : Boards) (search : Search) : Prop :=
  search.outcome.Ends → ∀ query ∈ search.queries, query.Exists boards

lemma Search.Careful.after (h : search.Careful boards)
    (hqueries : ∀ query ∈ queries, query.Exists boards) : (search.after queries).Careful boards := by
  intro hends query hquery
  rcases List.mem_append.mp hquery with hquery | hquery
  · exact hqueries query hquery
  · exact h hends query hquery

lemma exists_singleton {query : Query} (h : query.Exists boards) :
    ∀ q ∈ [query], q.Exists boards := by
  intro q hq
  rw [List.mem_singleton.mp hq]
  exact h

lemma channelLoop_careful (objs : List ℕ) :
    (channelLoop boards sessions dev objs).Careful boards := by
  induction objs with
  | nil => exact fun _ _ h => nomatch h
  | cons obj objs ih =>
    rw [channelLoop]
    by_cases hvalid : boards.validChannel dev obj = false
    · rw [if_pos hvalid]
      exact fun h => nomatch h
    · have hone : ∀ query ∈ [Query.channel dev obj], query.Exists boards :=
        exists_singleton (eq_true_of_ne_false hvalid)
      rw [if_neg hvalid]
      split_ifs
      · exact fun _ => hone
      · exact ih.after hone

lemma channelCount_eq_some {count : ℕ} (h : boards.channelCount dev = some count) :
    dev < boards.deviceCount := (List.getElem?_eq_some_iff.mp h).1

lemma boardBody_careful (boards : Boards) (sessions : Sessions Session)
    (selection : Selection) (dev : ℕ) :
    (boardBody boards sessions selection dev).Careful boards := by
  rw [boardBody]
  by_cases hlow : selection.firstChannel = false ∧ selection.channelLow < 0
  · rw [if_pos hlow]
    exact fun h => nomatch h
  rw [if_neg hlow]
  cases hcount : boards.channelCount dev with
  | none => exact fun h => nomatch h
  | some count =>
    have hone : ∀ query ∈ [Query.channelCount dev], query.Exists boards :=
      exists_singleton (channelCount_eq_some hcount)
    dsimp only
    split_ifs
    · exact (channelLoop_careful _).after hone
    · exact fun h => nomatch h
    · exact (channelLoop_careful _).after hone

lemma boardLoop_careful (devs : List ℕ) :
    (boardLoop boards sessions selection devs).Careful boards := by
  induction devs with
  | nil => exact fun _ _ h => nomatch h
  | cons dev devs ih =>
    have hbody := boardBody_careful boards sessions selection dev
    rw [boardLoop]
    split
    case h_1 houtcome => exact ih.after (hbody (by rw [houtcome]; trivial))
    case h_2 => exact hbody

/-- The outcome for the first available channel, or without one. -/
def Outcome.ofOption : Option (ℕ × ℕ) → Outcome → Outcome
  | some (dev, obj), _ => .found dev obj
  | none, outcome => outcome

/-- **It is the outcome that decides.** -/
lemma allocates_finish_iff {newSession : Session} (hcareful : search.Careful boards) :
    Allocates boards sessions board channel newSession (finish sessions newSession search) ↔
      search.outcome =
        .ofOption (firstAvailable boards sessions board channel) .exhausted := by
  constructor
  · intro h
    have hpvt := h.pvt
    have hcause := h.cause
    have hreturned := h.returned
    rw [finish] at hpvt hcause hreturned
    cases houtcome : search.outcome with
    | found dev obj =>
      rw [houtcome] at hpvt
      rw [← hpvt]
      rfl
    | exhausted =>
      rw [houtcome] at hpvt
      rw [← hpvt]
      rfl
    | aborted =>
      rw [houtcome] at hpvt hcause
      rw [← hpvt] at hcause
      cases hcause
    | thrown =>
      rw [houtcome] at hreturned
      cases hreturned
  · intro houtcome
    have hqueries := hcareful
    rw [Search.Careful, houtcome] at hqueries
    cases hfirst : firstAvailable boards sessions board channel with
    | none =>
      rw [hfirst] at houtcome hqueries
      have hfinish : finish sessions newSession search =
          ⟨true, none, .normalCircuitCongestion, sessions, false, search.queries⟩ := by
        rw [finish, houtcome]
        rfl
      rw [hfinish]
      refine ⟨hfirst.symm, ?_, ?_, rfl, rfl, hqueries trivial⟩
      · rw [hfirst]
        rfl
      · rw [hfirst]
        rfl
    | some pvt =>
      rw [hfirst] at houtcome hqueries
      have hfinish : finish sessions newSession search =
          ⟨true, some pvt, .success, mark sessions newSession (some pvt), false,
            search.queries⟩ := by
        rw [finish, houtcome]
        rfl
      rw [hfinish]
      refine ⟨hfirst.symm, ?_, ?_, rfl, rfl, hqueries trivial⟩
      · rw [hfirst]
        rfl
      · rw [hfirst]

/-! ## One board -/

lemma validChannel_iff {count : ℕ} (h : boards.channelCount dev = some count) :
    boards.validChannel dev obj = decide (obj < count) := by
  rw [Boards.validChannel, h]
  rfl

/-- The channels that are there, and then perhaps one that is not. -/
lemma channelLoop_outcome (sessions : Sessions Session)
    (hobjs : ∀ obj ∈ objs, boards.validChannel dev obj)
    {last : List ℕ} (hlast : ∀ obj ∈ last, boards.validChannel dev obj = false) :
    (channelLoop boards sessions dev (objs ++ last)).outcome =
      .ofOption ((objs.find? (available boards sessions dev)).map (dev, ·))
        (if last = [] then .exhausted else .aborted) := by
  induction objs with
  | nil =>
    cases last with
    | nil => rfl
    | cons obj last =>
      rw [List.nil_append, channelLoop, if_pos (hlast obj List.mem_cons_self)]
      rfl
  | cons obj objs ih =>
    obtain ⟨hvalid, hobjs⟩ := List.forall_mem_cons.mp hobjs
    have havailable : available boards sessions dev obj =
        (boards.callFree dev obj && (sessions dev obj).isNone) := by
      rw [available, hvalid, Bool.true_and]
    rw [List.cons_append, channelLoop, if_neg (by rw [hvalid]; exact Bool.noConfusion),
      List.find?_cons, ← havailable]
    cases available boards sessions dev obj with
    | true => rfl
    | false => exact ih hobjs

/-! ## The selection -/

/-- What a loop from below comes to in the end. -/
def Choice.extra (count : ℕ) : Choice → List ℕ
  | lowestFirst => [count]
  | _ => []

/-- The selection for these choices. -/
def selectionFor (boards : Boards) (board channel : Choice) : Selection where
  boardLow := board.number
  boardHigh := match board with
    | .index n => n
    | _ => boards.deviceCount
  reverseBoards := match board with
    | .highestFirst => true
    | _ => false
  firstChannel := match channel with
    | .index _ => false
    | _ => true
  reverseChannels := match channel with
    | .highestFirst => true
    | _ => false
  channelLow := match channel with
    | .index _ => board.number
    | _ => 0
  channelHigh := match channel with
    | .index _ => board.number
    | _ => 0

/-- A numeral does not begin with a letter. -/
lemma isFirst_of_decimal (h : Numeral.decimal text = some n) :
    isFirst text = false ∧ isReverse text = false := by
  cases text with
  | nil => exact ⟨rfl, rfl⟩
  | cons c text =>
    have hdigit := Numeral.isDigit_of_decimal h c List.mem_cons_self
    have hA : c ≠ 'A' := by
      rintro rfl
      cases hdigit
    have ha : c ≠ 'a' := by
      rintro rfl
      cases hdigit
    simp [isFirst, isReverse, hA, ha]

lemma atoi_board (h : board.Denotes text) (hfits : board.number ≤ 2147483647) :
    atoi text = board.number := by
  cases board with
  | index n => exact atoi_of_decimal h hfits
  | lowestFirst =>
    cases (show text = ['A'] from h)
    rfl
  | highestFirst =>
    cases (show text = ['a'] from h)
    rfl

/-- **The dial string is read as the choices that it denotes**, but for the number of a channel. -/
lemma select_eq {boardText channelText : Text} (hboard : board.Denotes boardText)
    (hchannel : channel.Denotes channelText) (hfits : board.number ≤ 2147483647) :
    select boards boardText channelText = selectionFor boards board channel := by
  have hatoi := atoi_board hboard hfits
  have hchannelFirst : isFirst channelText = (selectionFor boards board channel).firstChannel ∧
      isReverse channelText = (selectionFor boards board channel).reverseChannels := by
    cases channel with
    | index n => exact isFirst_of_decimal hchannel
    | lowestFirst =>
      cases (show channelText = ['A'] from hchannel)
      exact ⟨rfl, rfl⟩
    | highestFirst =>
      cases (show channelText = ['a'] from hchannel)
      exact ⟨rfl, rfl⟩
  simp only [select, hatoi, hchannelFirst.1, hchannelFirst.2]
  cases board with
  | index n =>
    obtain ⟨hfirst, hreverse⟩ := isFirst_of_decimal hboard
    rw [hfirst, hreverse]
    cases channel <;> rfl
  | lowestFirst =>
    cases (show boardText = ['A'] from hboard)
    cases channel <;> rfl
  | highestFirst =>
    cases (show boardText = ['a'] from hboard)
    cases channel <;> rfl

lemma indices_from_zero (count : ℕ) :
    indices false 0 count = List.range count ++ [count] ∧
      indices true 0 count = (List.range count).reverse := by
  constructor
  · rw [indices, if_neg Bool.false_ne_true, Nat.sub_zero, ← List.range_eq_range',
      List.range_succ]
  · rw [indices, if_pos rfl, Nat.sub_zero, ← List.range_eq_range']

lemma indices_single (i : ℕ) : indices false i i = [i] := by
  rw [indices, if_neg Bool.false_ne_true, Nat.add_sub_cancel_left]
  rfl

/-- The boards of the loop. -/
lemma indices_boards (board channel : Choice) :
    indices (selectionFor boards board channel).reverseBoards
        (selectionFor boards board channel).boardLow.toNat
        (selectionFor boards board channel).boardHigh.toNat =
      board.order boards.deviceCount ++ board.extra boards.deviceCount := by
  cases board with
  | index n => exact indices_single n
  | lowestFirst => exact (indices_from_zero _).1
  | highestFirst => exact (indices_from_zero _).2.trans (List.append_nil _).symm

/-! ## One board -/

lemma exists_count (h : dev < boards.deviceCount) :
    ∃ count, boards.channelCount dev = some count :=
  ⟨boards.counts[dev], List.getElem?_eq_getElem h⟩

lemma boardBody_highestFirst (sessions : Sessions Session) (board : Choice)
    (h : dev < boards.deviceCount) :
    (boardBody boards sessions (selectionFor boards board .highestFirst) dev).outcome =
      .ofOption (firstOfBoard boards sessions .highestFirst dev) .exhausted := by
  obtain ⟨count, hcount⟩ := exists_count h
  have hvalid : ∀ obj ∈ (List.range count).reverse, boards.validChannel dev obj := by
    intro obj hobj
    rw [validChannel_iff hcount]
    exact decide_eq_true (List.mem_range.mp (List.mem_reverse.mp hobj))
  have hlast : ∀ obj ∈ ([] : List ℕ), boards.validChannel dev obj = false := fun _ h => nomatch h
  have hloop := channelLoop_outcome sessions hvalid hlast
  rw [List.append_nil] at hloop
  rw [boardBody, if_neg (fun h => nomatch h.1), hcount, firstOfBoard, hcount]
  show (channelLoop boards sessions dev (indices true 0 count)).outcome = _
  rw [(indices_from_zero count).2, hloop]
  rfl

/-- From below a channel comes last that is not there. -/
lemma boardBody_lowestFirst (sessions : Sessions Session) (board : Choice)
    (h : dev < boards.deviceCount) :
    (boardBody boards sessions (selectionFor boards board .lowestFirst) dev).outcome =
      .ofOption (firstOfBoard boards sessions .lowestFirst dev) .aborted := by
  obtain ⟨count, hcount⟩ := exists_count h
  have hvalid : ∀ obj ∈ List.range count, boards.validChannel dev obj := by
    intro obj hobj
    rw [validChannel_iff hcount]
    exact decide_eq_true (List.mem_range.mp hobj)
  have hlast : ∀ obj ∈ [count], boards.validChannel dev obj = false := by
    intro obj hobj
    rw [List.mem_singleton.mp hobj, validChannel_iff hcount]
    exact decide_eq_false (lt_irrefl count)
  have hloop := channelLoop_outcome sessions hvalid hlast
  rw [boardBody, if_neg (fun h => nomatch h.1), hcount, firstOfBoard, hcount]
  show (channelLoop boards sessions dev (indices false 0 count)).outcome = _
  rw [(indices_from_zero count).1, hloop]
  rfl

/-- Where a number is asked for, one channel is looked at. -/
lemma boardBody_index (sessions : Sessions Session) (board : Choice)
    (h : dev < boards.deviceCount) (number : ℕ) :
    (boardBody boards sessions (selectionFor boards board (.index number)) dev).outcome =
      if boards.validChannel dev board.number then
        if available boards sessions dev board.number then .found dev board.number
        else .exhausted
      else .aborted := by
  obtain ⟨count, hcount⟩ := exists_count h
  have hlow : ¬ ((board.number : ℤ) < 0) := Int.not_lt.mpr (Int.natCast_nonneg _)
  rw [boardBody, if_neg (fun h => hlow h.2), hcount]
  show (if (count : ℤ) < (board.number : ℤ) then _ else _ : Search).outcome = _
  rw [validChannel_iff hcount]
  by_cases hhigh : count < board.number
  · have hinvalid : ¬ board.number < count := not_lt.mpr hhigh.le
    rw [if_pos (Int.ofNat_lt.mpr hhigh), if_neg (by rw [decide_eq_true_eq]; exact hinvalid)]
  · rw [if_neg (fun h => hhigh (Int.ofNat_lt.mp h))]
    show (channelLoop boards sessions dev (indices false board.number board.number)).outcome = _
    rw [indices_single, channelLoop, available, validChannel_iff hcount]
    by_cases hvalid : board.number < count
    · rw [decide_eq_true hvalid, if_neg (fun h => nomatch h), if_pos rfl, Bool.true_and]
      split_ifs <;> rfl
    · rw [decide_eq_false hvalid, if_pos rfl, if_neg (fun h => nomatch h)]

/-! ## All boards -/

lemma boardLoop_cons_exhausted {rest : List ℕ}
    (h : (boardBody boards sessions selection dev).outcome = .exhausted) :
    (boardLoop boards sessions selection (dev :: rest)).outcome =
      (boardLoop boards sessions selection rest).outcome := by
  rw [boardLoop, h]
  rfl

lemma boardLoop_cons_ended {rest : List ℕ}
    (h : (boardBody boards sessions selection dev).outcome ≠ .exhausted) :
    (boardLoop boards sessions selection (dev :: rest)).outcome =
      (boardBody boards sessions selection dev).outcome := by
  rw [boardLoop]
  split
  case h_1 houtcome => exact absurd houtcome h
  case h_2 => rfl

/-- How the loop ends behind the boards that are there. -/
def Choice.ending : Choice → Outcome
  | lowestFirst => .thrown
  | _ => .exhausted

lemma boardLoop_extra (board channel : Choice) :
    (boardLoop boards sessions (selectionFor boards board channel)
      (board.extra boards.deviceCount)).outcome = board.ending := by
  cases board with
  | lowestFirst =>
    have hnone : boards.channelCount boards.deviceCount = none := List.getElem?_eq_none le_rfl
    have hbody : (boardBody boards sessions (selectionFor boards .lowestFirst channel)
        boards.deviceCount).outcome = .thrown := by
      rw [boardBody, if_neg, hnone]
      rintro ⟨-, hlow⟩
      cases channel <;> cases hlow
    show (boardLoop boards sessions _ [boards.deviceCount]).outcome = _
    rw [boardLoop_cons_ended (by rw [hbody]; exact fun h => nomatch h), hbody]
    rfl
  | index n => rfl
  | highestFirst => rfl

lemma lt_of_mem_order (hrange : board.InRange n) (h : dev ∈ board.order n) : dev < n := by
  cases board with
  | index m =>
    rw [List.mem_singleton.mp h]
    exact hrange
  | lowestFirst => exact List.mem_range.mp h
  | highestFirst => exact List.mem_range.mp (List.mem_reverse.mp h)

/-- With the channels from above the loop goes on to the next board. -/
lemma boardLoop_highestFirst {last : List ℕ} (hdevs : ∀ dev ∈ devs, dev < boards.deviceCount) :
    (boardLoop boards sessions (selectionFor boards board .highestFirst) (devs ++ last)).outcome =
      .ofOption (devs.findSome? (firstOfBoard boards sessions .highestFirst))
        (boardLoop boards sessions (selectionFor boards board .highestFirst) last).outcome := by
  induction devs with
  | nil => rfl
  | cons dev devs ih =>
    obtain ⟨hdev, hdevs⟩ := List.forall_mem_cons.mp hdevs
    have hbody := boardBody_highestFirst sessions board hdev
    rw [List.cons_append, List.findSome?_cons]
    cases hfirst : firstOfBoard boards sessions .highestFirst dev with
    | none =>
      rw [hfirst] at hbody
      rw [boardLoop_cons_exhausted hbody]
      exact ih hdevs
    | some pvt =>
      rw [hfirst] at hbody
      rw [boardLoop_cons_ended (by rw [hbody]; exact fun h => nomatch h), hbody]
      rfl

lemma lowestFirst_ne_index (n : ℕ) : Choice.lowestFirst ≠ .index n := fun h => nomatch h

lemma highestFirst_ne_index (n : ℕ) : Choice.highestFirst ≠ .index n := fun h => nomatch h

lemma count_of_available (h : available boards sessions dev obj) :
    obj < (boards.channelCount dev).getD 0 := by
  rw [available, Bool.and_eq_true, Boards.validChannel] at h
  cases hcount : boards.channelCount dev with
  | none =>
    rw [hcount] at h
    exact nomatch h.1
  | some count =>
    rw [hcount] at h
    exact of_decide_eq_true h.1

lemma firstOfBoard_isSome (hchannel : ∀ n, channel ≠ .index n) :
    (firstOfBoard boards sessions channel dev).isSome ↔
      ∃ obj, available boards sessions dev obj := by
  rw [firstOfBoard, Option.isSome_map, List.find?_isSome]
  refine exists_congr fun obj => and_iff_right_of_imp fun h => ?_
  have hobj := List.mem_range.mpr (count_of_available h)
  cases channel with
  | index n => exact absurd rfl (hchannel n)
  | lowestFirst => exact hobj
  | highestFirst => exact List.mem_reverse.mpr hobj

lemma firstAvailable_isSome (hboard : board = .lowestFirst) (hchannel : ∀ n, channel ≠ .index n) :
    (firstAvailable boards sessions board channel).isSome ↔
      ∃ dev obj, available boards sessions dev obj := by
  rw [firstAvailable, List.findSome?_isSome_iff]
  refine exists_congr fun dev => ?_
  rw [firstOfBoard_isSome hchannel]
  refine and_iff_right_of_imp fun ⟨obj, hobj⟩ => ?_
  rw [hboard]
  refine List.mem_range.mpr ?_
  have hcount := count_of_available hobj
  by_contra hdev
  rw [Boards.channelCount, List.getElem?_eq_none (not_lt.mp hdev)] at hcount
  cases hcount

/-! ## Channels by their numbers -/

variable {number : ℕ}

lemma firstOfBoard_index (dev number : ℕ) :
    firstOfBoard boards sessions (.index number) dev =
      if available boards sessions dev number then some (dev, number) else none := by
  rw [firstOfBoard]
  show (List.find? _ [number]).map _ = _
  rw [List.find?_cons]
  cases available boards sessions dev number <;> rfl

/-- The channel that is found is the one that is looked at. -/
lemma boardLoop_index_found {last : List ℕ} (hdevs : ∀ dev ∈ devs, dev < boards.deviceCount)
    (hlast : (boardLoop boards sessions (selectionFor boards board (.index number)) last).outcome =
      board.ending)
    (h : (boardLoop boards sessions (selectionFor boards board (.index number))
      (devs ++ last)).outcome = .found dev obj) : obj = board.number := by
  induction devs with
  | nil =>
    rw [List.nil_append, hlast] at h
    cases board <;> cases h
  | cons dev' devs ih =>
    obtain ⟨hdev, hdevs⟩ := List.forall_mem_cons.mp hdevs
    have hbody := boardBody_index sessions board hdev number
    by_cases hexhausted : (boardBody boards sessions (selectionFor boards board (.index number))
        dev').outcome = .exhausted
    · rw [List.cons_append, boardLoop_cons_exhausted hexhausted] at h
      exact ih hdevs h
    · rw [List.cons_append, boardLoop_cons_ended hexhausted, hbody] at h
      split_ifs at h
      cases h
      rfl

/-- A list that comes to an element with something else before it. -/
lemma exists_split_cons {p q : ℕ → Prop} {a : ℕ} {l : List ℕ} :
    (∃ before x after, a :: l = before ++ x :: after ∧ p x ∧ ∀ y ∈ before, q y) ↔
      p a ∨ (q a ∧ ∃ before x after, l = before ++ x :: after ∧ p x ∧ ∀ y ∈ before, q y) := by
  constructor
  · rintro ⟨before, x, after, hl, hp, hq⟩
    cases before with
    | nil =>
      cases hl
      exact Or.inl hp
    | cons b before =>
      cases hl
      obtain ⟨hb, hbefore⟩ := List.forall_mem_cons.mp hq
      exact Or.inr ⟨hb, before, x, after, rfl, hp, hbefore⟩
  · rintro (hp | ⟨hq, before, x, after, rfl, hp, hbefore⟩)
    · exact ⟨[], a, l, rfl, hp, fun _ h => nomatch h⟩
    · exact ⟨a :: before, x, after, rfl, hp, List.forall_mem_cons.mpr ⟨hq, hbefore⟩⟩

lemma findSome_index_cons (dev number : ℕ) (devs : List ℕ) :
    (dev :: devs).findSome? (firstOfBoard boards sessions (.index number)) =
      if available boards sessions dev number then some (dev, number)
      else devs.findSome? (firstOfBoard boards sessions (.index number)) := by
  rw [List.findSome?_cons, firstOfBoard_index]
  split_ifs <;> rfl

/-- The first available channel has the number that was asked for. -/
lemma number_of_findSome (h : Outcome.found dev obj =
    .ofOption (devs.findSome? (firstOfBoard boards sessions (.index number))) .exhausted) :
    obj = number := by
  cases hfirst : devs.findSome? (firstOfBoard boards sessions (.index number)) with
  | none =>
    rw [hfirst] at h
    cases h
  | some pvt =>
    obtain ⟨dev', -, hdev'⟩ := List.exists_of_findSome?_eq_some hfirst
    rw [firstOfBoard_index] at hdev'
    split_ifs at hdev'
    cases hdev'
    rw [hfirst] at h
    cases h
    rfl

lemma aborted_ne_ofOption (pvt : Option (ℕ × ℕ)) :
    Outcome.aborted ≠ .ofOption pvt .exhausted := by
  cases pvt <;> exact fun h => nomatch h

lemma valid_of_available (h : available boards sessions dev obj) : boards.validChannel dev obj := by
  rw [available, Bool.and_eq_true] at h
  exact h.1

/-- **The search for a number comes to the first available channel just where `WorksByNumber` says
so.** -/
lemma boardLoop_index {last : List ℕ} (hdevs : ∀ dev ∈ devs, dev < boards.deviceCount)
    (hlast : (boardLoop boards sessions (selectionFor boards board (.index number)) last).outcome =
      board.ending) :
    (boardLoop boards sessions (selectionFor boards board (.index number))
        (devs ++ last)).outcome =
      .ofOption (devs.findSome? (firstOfBoard boards sessions (.index number))) .exhausted ↔
    (board.number = number ∧ ∃ before dev after, devs = before ++ dev :: after ∧
        available boards sessions dev number ∧ ∀ dev ∈ before, boards.validChannel dev number) ∨
      (board ≠ .lowestFirst ∧ ∀ dev ∈ devs, boards.validChannel dev board.number ∧
        available boards sessions dev board.number = false ∧
          available boards sessions dev number = false) := by
  induction devs with
  | nil =>
    have hnone : ¬ ∃ before dev after, [] = before ++ dev :: after ∧
        available boards sessions dev number ∧ ∀ dev ∈ before, boards.validChannel dev number := by
      rintro ⟨before, dev, after, h, -⟩
      cases before <;> cases h
    rw [List.nil_append, hlast, or_iff_right fun h => hnone h.2,
      and_iff_left fun _ h => nomatch h]
    cases board with
    | lowestFirst => exact iff_of_false (fun h => nomatch h) (fun h => h rfl)
    | index n => exact iff_of_true rfl (fun h => nomatch h)
    | highestFirst => exact iff_of_true rfl (fun h => nomatch h)
  | cons dev devs ih =>
    obtain ⟨hdev, hothers⟩ := List.forall_mem_cons.mp hdevs
    have hbody := boardBody_index sessions board hdev number
    rw [List.cons_append, exists_split_cons, List.forall_mem_cons]
    by_cases hvalid : boards.validChannel dev board.number
    · rw [if_pos hvalid] at hbody
      by_cases hfound : available boards sessions dev board.number
      · -- this channel is returned, and it has to be the one that was asked for
        rw [if_pos hfound] at hbody
        rw [boardLoop_cons_ended (by rw [hbody]; exact fun h => nomatch h), hbody]
        by_cases hnumber : board.number = number
        · rw [← hnumber, findSome_index_cons, if_pos hfound]
          exact iff_of_true rfl (Or.inl ⟨rfl, Or.inl hfound⟩)
        · refine iff_of_false (fun h => hnumber (number_of_findSome h)) ?_
          rintro (⟨h, -⟩ | ⟨-, ⟨-, h, -⟩, -⟩)
          · exact hnumber h
          · rw [hfound] at h
            cases h
      · rw [if_neg hfound] at hbody
        rw [boardLoop_cons_exhausted hbody]
        by_cases hother : available boards sessions dev number
        · -- the loop goes on past the channel that was asked for
          have hnumber : board.number ≠ number := by
            rintro rfl
            exact hfound hother
          rw [findSome_index_cons, if_pos hother]
          refine iff_of_false ?_ ?_
          · intro h
            exact hnumber (boardLoop_index_found hothers hlast h).symm
          · rintro (⟨h, -⟩ | ⟨-, ⟨-, -, h⟩, -⟩)
            · exact hnumber h
            · rw [hother] at h
              cases h
        · rw [findSome_index_cons, if_neg hother]
          refine (ih hothers).trans (or_congr ?_ ?_)
          · refine and_congr_right fun hnumber => ?_
            rw [hnumber] at hvalid
            rw [or_iff_right hother, and_iff_right hvalid]
          · rw [and_iff_right (show _ ∧ _ ∧ _ from
              ⟨hvalid, eq_false_of_ne_true hfound, eq_false_of_ne_true hother⟩)]
    · -- the board does not have the channel that is looked at, and the function returns at once
      rw [if_neg hvalid] at hbody
      rw [boardLoop_cons_ended (by rw [hbody]; exact fun h => nomatch h), hbody]
      refine iff_of_false (aborted_ne_ofOption _) ?_
      rintro (⟨rfl, h | h⟩ | ⟨-, ⟨h, -⟩, -⟩)
      · exact hvalid (valid_of_available h)
      · exact hvalid h.1
      · exact hvalid h

/-! ## The first free channel -/

/-- From above the loops come to every channel, and from below they then go on to a board that is
not there. -/
lemma boardLoop_works_highestFirst (hrange : board.InRange boards.deviceCount) :
    (boardLoop boards sessions (selectionFor boards board .highestFirst)
        (board.order boards.deviceCount ++ board.extra boards.deviceCount)).outcome =
      .ofOption (firstAvailable boards sessions board .highestFirst) .exhausted ↔
    Works boards sessions board .highestFirst := by
  rw [boardLoop_highestFirst fun dev h => lt_of_mem_order hrange h, boardLoop_extra, Works]
  show Outcome.ofOption (firstAvailable boards sessions board .highestFirst) board.ending = _ ↔ _
  by_cases hboard : board = .lowestFirst
  · rw [← firstAvailable_isSome hboard highestFirst_ne_index, imp_iff_right hboard, hboard]
    cases firstAvailable boards sessions .lowestFirst .highestFirst with
    | none => exact iff_of_false (fun h => nomatch h) (fun h => nomatch h)
    | some pvt => exact iff_of_true rfl rfl
  · have hending : board.ending = .exhausted := by
      cases board with
      | lowestFirst => exact absurd rfl hboard
      | index n => rfl
      | highestFirst => rfl
    rw [hending]
    exact iff_of_true rfl fun h => absurd h hboard

/-- From below the search ends with the first board. -/
lemma boardLoop_works_lowestFirst (hrange : board.InRange boards.deviceCount) :
    (boardLoop boards sessions (selectionFor boards board .lowestFirst)
        (board.order boards.deviceCount ++ board.extra boards.deviceCount)).outcome =
      .ofOption (firstAvailable boards sessions board .lowestFirst) .exhausted ↔
    Works boards sessions board .lowestFirst := by
  have hin : ∀ dev ∈ board.order boards.deviceCount, dev < boards.deviceCount :=
    fun dev h => lt_of_mem_order hrange h
  rw [Works, firstAvailable]
  cases horder : board.order boards.deviceCount with
  | nil =>
    rw [List.nil_append, boardLoop_extra]
    cases board with
    | lowestFirst => exact iff_of_false (fun h => nomatch h) (fun h => h rfl)
    | index n => exact iff_of_true rfl (fun h => nomatch h)
    | highestFirst => exact iff_of_true rfl (fun h => nomatch h)
  | cons dev devs =>
    have hdev : dev < boards.deviceCount := hin dev (by rw [horder]; exact List.mem_cons_self)
    have hbody := boardBody_lowestFirst sessions board hdev
    dsimp only
    rw [← firstOfBoard_isSome lowestFirst_ne_index, List.cons_append, List.findSome?_cons]
    cases hfirst : firstOfBoard boards sessions .lowestFirst dev with
    | none =>
      rw [hfirst] at hbody
      rw [boardLoop_cons_ended (by rw [hbody]; exact fun h => nomatch h), hbody]
      exact iff_of_false (aborted_ne_ofOption _) (fun h => nomatch h)
    | some pvt =>
      rw [hfirst] at hbody
      rw [boardLoop_cons_ended (by rw [hbody]; exact fun h => nomatch h), hbody]
      exact iff_of_true rfl rfl

/-! ## The result -/

lemma number_le (hrange : board.InRange boards.deviceCount) : board.number ≤ 2147483647 := by
  have hcount := boards.fits boards.deviceCount List.mem_cons_self
  cases board with
  | index n =>
    have hn : n < boards.deviceCount := hrange
    show n ≤ _
    omega
  | lowestFirst => exact Nat.zero_le _
  | highestFirst => exact Nat.zero_le _

/-- The sanity check lets a board pass that is there. -/
lemma not_insane (hrange : board.InRange boards.deviceCount) :
    ¬ ((selectionFor boards board channel).boardLow < 0 ∨
      (boards.deviceCount : ℤ) < (selectionFor boards board channel).boardHigh) := by
  rintro (h | h)
  · exact absurd h (Int.not_lt.mpr (Int.natCast_nonneg board.number))
  · cases board with
    | index n =>
      have hn : n < boards.deviceCount := hrange
      exact absurd (Int.ofNat_lt.mp h) (not_lt.mpr hn.le)
    | lowestFirst => exact Int.lt_irrefl boards.deviceCount h
    | highestFirst => exact Int.lt_irrefl boards.deviceCount h

/-- **A channel is allocated as it should exactly where the loops come to the first one that is
available.** -/
theorem find_channel_allocates_iff (boards : Boards) (sessions : Sessions Session)
    (board channel : Choice) (newSession : Session) (separate : Text → List Text)
    (boardText channelText numberText : Text)
    (hseparate : separate (boardText ++ '/' :: (channelText ++ '/' :: numberText)) =
      [boardText, channelText, numberText])
    (hboard : board.Denotes boardText) (hchannel : channel.Denotes channelText)
    (hrange : board.InRange boards.deviceCount) :
    Allocates boards sessions board channel newSession (findChannel boards sessions separate
        (boardText ++ '/' :: (channelText ++ '/' :: numberText)) newSession) ↔
      Works boards sessions board channel := by
  have hin : ∀ dev ∈ board.order boards.deviceCount, dev < boards.deviceCount :=
    fun dev h => lt_of_mem_order hrange h
  rw [findChannel, hseparate]
  dsimp only
  rw [select_eq hboard hchannel (number_le hrange), if_neg (not_insane hrange), indices_boards,
    allocates_finish_iff (boardLoop_careful _)]
  cases channel with
  | index number => exact boardLoop_index hin (boardLoop_extra board (.index number))
  | lowestFirst => exact boardLoop_works_lowestFirst hrange
  | highestFirst => exact boardLoop_works_highestFirst hrange

end

/-- Two boards, with one channel and with two, all of them free. -/
def freeBoards : Boards where
  counts := [1, 2]
  callFree _ _ := true
  fits := by decide

/-- The second board from above, for the session `7`. -/
theorem find_channel_allocates_second :
    Allocates freeBoards (fun _ _ => none) (.index 1) .highestFirst 7
      (findChannel freeBoards (fun _ _ => none) (List.splitOn '/') "1/a/200".toList 7) :=
  (find_channel_allocates_iff freeBoards (fun _ _ => none) (.index 1) .highestFirst 7
    (List.splitOn '/') ['1'] ['a'] ['2', '0', '0'] rfl rfl rfl (by decide : 1 < 2)).mpr
    fun h => nomatch h

/-- The channel `0` of the second board is asked for, and the channel `1` is taken. -/
theorem find_channel_takes_other_channel :
    (findChannel freeBoards (fun _ _ => none) (List.splitOn '/') "1/0/200".toList 7).pvt =
        some (1, 1) ∧
      ¬ Allocates freeBoards (fun _ _ => none) (.index 1) (.index 0) 7
        (findChannel freeBoards (fun _ _ => none) (List.splitOn '/') "1/0/200".toList 7) := by
  have htaken : (findChannel freeBoards (fun _ _ => none) (List.splitOn '/')
      "1/0/200".toList 7).pvt = some (1, 1) := rfl
  refine ⟨htaken, fun h => ?_⟩
  have hpvt := h.pvt
  rw [htaken] at hpvt
  cases hpvt

end Khomp.FindChannel

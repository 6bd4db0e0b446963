import LangGraph.Foundation.Status
import LangGraph.Lib.ExceptList

/-!
# Server-sent events

The parser gets a stream in chunks.  It keeps what stands behind the last line break in a buffer and
the fields of the event that is being read.  A callback that throws gives a status like one that
fails; after either the parser is not used again.
-/

namespace LangGraph

open ExceptList ByteString List

/-! ## 1. The parser -/

structure ServerSentEvent where
  event : Bytes
  data : Bytes
  id : Bytes
  retry : Option Nat
deriving DecidableEq

/-- The event that is being read. -/
structure PendingEvent where
  event : Bytes := []
  data : Bytes := []
  id : Bytes := []
  retry : Option Nat := none
  hasData : Bool := false

structure SseParser where
  buffer : Bytes := []
  pending : PendingEvent := {}

def newline : UInt8 := 10
def carriageReturn : UInt8 := 13
def colon : UInt8 := 58
def space : UInt8 := 32

/-- `std::from_chars` over the whole value, for what fits a signed number of milliseconds. -/
def parseRetry (value : Bytes) : Option Nat :=
  if value ≠ [] ∧ (∀ byte ∈ value, 48 ≤ byte ∧ byte ≤ 57) ∧ digitsValue value ≤ 2 ^ 63 - 1 then
    some (digitsValue value)
  else none

def PendingEvent.setField (pending : PendingEvent) (field value : Bytes) : PendingEvent :=
  if field = lit "event" then { pending with event := value }
  else if field = lit "data" then
    { pending with
      data := (if pending.hasData then pending.data ++ [newline] else pending.data) ++ value
      hasData := true }
  else if field = lit "id" then { pending with id := value }
  else if field = lit "retry" then
    { pending with retry := (parseRetry value).or pending.retry }
  else pending

def PendingEvent.finished (pending : PendingEvent) : ServerSentEvent where
  event := if pending.event = [] then lit "message" else pending.event
  data := pending.data
  id := pending.id
  retry := pending.retry

def fieldValue (line : Bytes) : Bytes :=
  match line.dropWhile (· ≠ colon) with
  | [] => []
  | _ :: value => if value.head? = some space then value.tail else value

namespace SseParser

variable {σ : Type} (callback : σ → ServerSentEvent → Result σ)

def dispatch (state : PendingEvent × σ) : Result (PendingEvent × σ) :=
  if state.1.hasData then do
    let seen ← callback state.2 state.1.finished
    return ({}, seen)
  else .ok ({}, state.2)

def consumeLine (state : PendingEvent × σ) (line : Bytes) : Result (PendingEvent × σ) :=
  if line = [] then dispatch callback state
  else if line.head? = some colon then .ok state
  else .ok (state.1.setField (line.takeWhile (· ≠ colon)) (fieldValue line), state.2)

/-- The lines that end in the text, and what stands behind the last of them. -/
def splitLines (text : Bytes) : List Bytes × Bytes :=
  text.foldl (fun cut byte =>
    if byte = newline then (cut.1 ++ [cut.2], []) else (cut.1, cut.2 ++ [byte])) ([], [])

def dropCarriageReturn (line : Bytes) : Bytes :=
  if line.getLast? = some carriageReturn then line.dropLast else line

/-- The loop takes one line after the other out of the buffer. -/
def feed (state : SseParser × σ) (chunk : Bytes) : Result (SseParser × σ) := do
  let cut := splitLines (state.1.buffer ++ chunk)
  let next ← (cut.1.map dropCarriageReturn).foldlM (consumeLine callback) (state.1.pending, state.2)
  return (⟨cut.2, next.1⟩, next.2)

def finish (state : SseParser × σ) : Result σ := do
  let next ← if state.1.buffer = [] then pure (state.1.pending, state.2)
    else consumeLine callback (state.1.pending, state.2) (dropCarriageReturn state.1.buffer)
  let last ← dispatch callback next
  return last.2

/-- The chunks of a stream, and its end. -/
def parse (seen : σ) (chunks : List Bytes) : Result σ := do
  let state ← chunks.foldlM (feed callback) ({}, seen)
  finish callback state

end SseParser

/-! ## 2. The events of a stream -/

namespace EventStream

/-- The lines of a stream end in LF or CRLF.  The last one need not: it may lack the LF, or all of
    its ending. -/
def lines (stream : Bytes) : List Bytes :=
  let pieces := stream.splitOn 10
  (if pieces.getLast? = some [] then pieces.dropLast else pieces).map fun piece =>
    if piece.getLast? = some 13 then piece.dropLast else piece

/-- The name of a field goes up to the first colon, which may be followed by a blank; a line without
    a colon is a name.  A comment is a line with the empty name. -/
def field (line : Bytes) : Bytes × Bytes :=
  let rest := line.drop (line.idxOf 58 + 1)
  (line.take (line.idxOf 58), if rest.head? = some 32 then rest.drop 1 else rest)

/-- The values of a field in a block of lines. -/
def values (name : String) (block : List Bytes) : List Bytes :=
  ((block.map field).filter fun entry => entry.1 = lit name).map Prod.snd

/-- A number of milliseconds: digits only, and less than `2 ^ 63`. -/
def milliseconds (value : Bytes) : Option Nat :=
  let number := Nat.ofDigits 10 (value.reverse.map fun byte => byte.toNat - 48)
  if value ≠ [] ∧ (∀ byte ∈ value, 48 ≤ byte ∧ byte ≤ 57) ∧ number < 2 ^ 63 then some number
  else none

/-- A block of lines is an event if it has data: all its data lines, and of every other field the
    last one. -/
def event (block : List Bytes) : Option ServerSentEvent :=
  if values "data" block = [] then none
  else some {
    event := match (values "event" block).getLast? with
      | none | some [] => lit "message"
      | some type => type
    data := [10].intercalate (values "data" block)
    id := (values "id" block).getLast?.getD []
    retry := ((values "retry" block).filterMap milliseconds).getLast? }

/-- Blocks are apart by empty lines. -/
def events (stream : Bytes) : List ServerSentEvent := ((lines stream).splitOn []).filterMap event

example : events (lit "id:7\r\ndata: a\n:c\ndata:b\n\ndata") =
    [⟨lit "message", lit "a\nb", lit "7", none⟩, ⟨lit "message", [], [], none⟩] := by
  decide +kernel

end EventStream

namespace SseParser

variable {σ : Type} {callback : σ → ServerSentEvent → Result σ}

/-! ## 3. Line by line -/

theorem splitLines_concat (text : Bytes) (byte : UInt8) :
    splitLines (text ++ [byte]) =
      if byte = newline then ((splitLines text).1 ++ [(splitLines text).2], [])
      else ((splitLines text).1, (splitLines text).2 ++ [byte]) := by
  rw [splitLines, foldl_concat]; rfl

/-- What is left behind the last line break has none. -/
theorem splitLines_rest (text : Bytes) :
    splitLines (splitLines text).2 = ([], (splitLines text).2) := by
  induction text using reverseRecOn with
  | nil => rfl
  | append_singleton text byte ih =>
    rw [splitLines_concat]
    split_ifs with hbyte
    · rfl
    · rw [splitLines_concat, if_neg hbyte, ih]

theorem splitLines_append (text more : Bytes) :
    splitLines (text ++ more) =
      ((splitLines text).1 ++ (splitLines ((splitLines text).2 ++ more)).1,
        (splitLines ((splitLines text).2 ++ more)).2) := by
  induction more using reverseRecOn with
  | nil => simp [splitLines_rest]
  | append_singleton more byte ih =>
    rw [← append_assoc, ← append_assoc, splitLines_concat, splitLines_concat, ih]
    split_ifs <;> simp

/-- After some chunks the parser has read the lines that end in them. -/
theorem foldlM_feed (seen : σ) (chunks : List Bytes) :
    chunks.foldlM (feed callback) ({}, seen) = (do
      let cut := splitLines chunks.flatten
      let next ← (cut.1.map dropCarriageReturn).foldlM (consumeLine callback) ({}, seen)
      return (⟨cut.2, next.1⟩, next.2)) := by
  induction chunks using reverseRecOn with
  | nil => rfl
  | append_singleton chunks chunk ih =>
    rw [foldlM_append, ih, flatten_append, flatten_singleton, splitLines_append]
    simp [feed, foldlM_append]

theorem modifyHead_self {α : Type} (blocks : List α) :
    blocks.modifyHead (fun block => block) = blocks := by
  cases blocks <;> rfl

/-- The pieces between the line breaks, of which the last is what is left in the buffer. -/
theorem splitLines_eq (text : Bytes) :
    text.splitOn newline = (splitLines text).1 ++ [(splitLines text).2] := by
  -- from the front, with the lines and the piece that the loop has already
  have hloop : ∀ (text : Bytes) (cut : List Bytes × Bytes),
      cut.1 ++ (text.splitOn newline).modifyHead (cut.2 ++ ·) =
        let next := text.foldl (fun cut byte => if byte = newline then (cut.1 ++ [cut.2], [])
          else (cut.1, cut.2 ++ [byte])) cut
        next.1 ++ [next.2] := by
    intro text
    induction text with
    | nil => simp
    | cons byte text ih =>
      intro cut
      rw [foldl_cons, ← ih, splitOn_cons_eq_if_modifyHead]
      by_cases hbyte : byte = newline
      · simp [hbyte, modifyHead_self]
      · simp [hbyte, Function.comp_def]
  have hwhole := hloop text ([], [])
  simp only [nil_append, modifyHead_self] at hwhole
  exact hwhole

theorem lines_eq (stream : Bytes) :
    EventStream.lines stream = ((splitLines stream).1 ++ if (splitLines stream).2 = [] then []
      else [(splitLines stream).2]).map dropCarriageReturn := by
  have hdrop : (fun piece : Bytes => if piece.getLast? = some 13 then piece.dropLast else piece)
      = dropCarriageReturn := rfl
  unfold EventStream.lines
  rw [show (10 : UInt8) = newline from rfl, splitLines_eq, hdrop]
  by_cases hrest : (splitLines stream).2 = []
  · simp [hrest]
  · simp [hrest]

/-- The event that is being read, after the lines of a block. -/
def pendingOf (block : List Bytes) : PendingEvent where
  event := (EventStream.values "event" block).getLast?.getD []
  data := [newline].intercalate (EventStream.values "data" block)
  id := (EventStream.values "id" block).getLast?.getD []
  retry := ((EventStream.values "retry" block).filterMap EventStream.milliseconds).getLast?
  hasData := EventStream.values "data" block ≠ []

theorem dispatch_pendingOf (block : List Bytes) (seen : σ) :
    dispatch callback (pendingOf block, seen) =
      (({}, ·) <$> (EventStream.event block).toList.foldlM callback seen) := by
  have hfinished : EventStream.values "data" block ≠ [] →
      EventStream.event block = some (pendingOf block).finished := by
    intro hdata
    rw [EventStream.event, if_neg hdata]
    cases hlast : (EventStream.values "event" block).getLast? with
    | none => simp [PendingEvent.finished, pendingOf, hlast, newline]
    | some type => cases type <;> simp [PendingEvent.finished, pendingOf, hlast, newline]
  by_cases hdata : EventStream.values "data" block = []
  · simp [dispatch, pendingOf, EventStream.event, hdata]; rfl
  · rw [hfinished hdata]
    simp [dispatch, pendingOf, hdata]

theorem field_eq (line : Bytes) :
    EventStream.field line = (line.takeWhile (· ≠ colon), fieldValue line) := by
  have hidx : line.findIdx (fun byte => !decide (byte ≠ colon)) = line.idxOf 58 := by
    refine congrArg (line.findIdx ·) (funext fun byte => ?_)
    by_cases h : byte = 58 <;> simp [colon, h]
  have hrest : (line.dropWhile (· ≠ colon)).tail = line.drop (line.idxOf 58 + 1) := by
    rw [dropWhile_eq_drop_findIdx_not, hidx, tail_drop]
  rw [EventStream.field, takeWhile_eq_take_findIdx_not, hidx, fieldValue, ← hrest]
  cases line.dropWhile (· ≠ colon) with
  | nil => rfl
  | cons => simp only [tail_cons, drop_one]; rfl

theorem values_concat (name : String) (block : List Bytes) (line : Bytes) :
    EventStream.values name (block ++ [line]) = EventStream.values name block ++
      if line.takeWhile (· ≠ colon) = lit name then [fieldValue line] else [] := by
  rw [EventStream.values, map_append, filter_append, map_append, map_singleton, field_eq,
    filter_singleton]
  generalize line.takeWhile (· ≠ colon) = field
  by_cases hname : field = lit name <;> simp [hname, EventStream.values]

theorem parseRetry_eq (value : Bytes) : parseRetry value = EventStream.milliseconds value := by
  have hvalue : digitsValue value
      = Nat.ofDigits 10 (value.reverse.map fun byte => byte.toNat - 48) := by
    induction value using reverseRecOn with
    | nil => rfl
    | append_singleton value byte ih =>
      rw [digitsValue_append_one, ih, reverse_append, reverse_singleton, singleton_append, map_cons,
        Nat.ofDigits_cons, Nat.add_comm]
  rw [parseRetry, EventStream.milliseconds, hvalue]
  simp only [Nat.lt_iff_le_pred (Nat.two_pow_pos 63)]

theorem intercalate_concat {pieces : List Bytes} (h : pieces ≠ []) (piece : Bytes) :
    [newline].intercalate (pieces ++ [piece])
      = [newline].intercalate pieces ++ newline :: piece := by
  induction pieces with
  | nil => exact absurd rfl h
  | cons first pieces ih =>
    cases pieces with
    | nil => simp [intercalate]
    | cons second pieces =>
      have hrest := ih (cons_ne_nil _ _)
      simp only [intercalate, cons_append, intersperse_cons_cons, flatten_cons] at hrest ⊢
      rw [hrest]; simp

theorem setField_pendingOf (block : List Bytes) (line : Bytes) :
    (pendingOf block).setField (line.takeWhile (· ≠ colon)) (fieldValue line)
      = pendingOf (block ++ [line]) := by
  unfold PendingEvent.setField pendingOf
  simp only [values_concat, parseRetry_eq]
  generalize line.takeWhile (· ≠ colon) = field
  by_cases hevent : field = lit "event"
  · simp [hevent, lit_inj]
  by_cases hdata : field = lit "data"
  · by_cases hfirst : EventStream.values "data" block = []
    · simp [hdata, hfirst, lit_inj]
    · simp [hdata, hfirst, lit_inj, intercalate_concat hfirst]
  by_cases hid : field = lit "id"
  · simp [hid, lit_inj]
  by_cases hretry : field = lit "retry"
  · simp [hretry, lit_inj]
  · simp [hevent, hdata, hid, hretry]

theorem consumeLine_pendingOf {line : Bytes} (hline : line ≠ []) (block : List Bytes) (seen : σ) :
    consumeLine callback (pendingOf block, seen) line
      = .ok (pendingOf (block ++ [line]), seen) := by
  rw [consumeLine, if_neg hline, ← setField_pendingOf]
  split_ifs with hcomment
  · -- the name of a comment is empty, which is no field
    obtain ⟨rest, rfl⟩ := head?_eq_some_iff.mp hcomment
    rw [takeWhile_cons_of_neg (by simp)]
    rfl
  · rfl

theorem filterMap_cons_eq {α β : Type} (f : α → Option β) (a : α) (as : List α) :
    (a :: as).filterMap f = (f a).toList ++ as.filterMap f := by
  cases h : f a <;> simp [h]

/-- From the lines of an unfinished block on. -/
theorem readLines_eq (callback : σ → ServerSentEvent → Result σ) (block lines : List Bytes)
    (seen : σ) :
    (do let state ← lines.foldlM (consumeLine callback) (pendingOf block, seen)
        let last ← dispatch callback state
        return last.2) =
      (((lines.splitOn []).modifyHead (block ++ ·)).filterMap EventStream.event).foldlM callback
        seen := by
  induction lines generalizing block seen with
  | nil =>
    rw [foldlM_nil, pure_bind, dispatch_pendingOf, splitOn_nil, modifyHead_cons, append_nil,
      filterMap_cons_eq, filterMap_nil, append_nil]
    simp
  | cons line lines ih =>
    rw [foldlM_cons, splitOn_cons_eq_if_modifyHead]
    by_cases hline : line = []
    · have hstart : ∀ seen, _ := fun seen => ih [] seen
      simp only [nil_append, modifyHead_self] at hstart
      rw [if_pos (by simpa using hline), modifyHead_cons, append_nil, filterMap_cons_eq,
        foldlM_append, consumeLine, if_pos hline, dispatch_pendingOf]
      simp only [map_eq_pure_bind, bind_assoc, pure_bind]
      exact bind_congr fun next => hstart next
    · rw [consumeLine_pendingOf hline]
      have := ih (block ++ [line]) seen
      simp [hline, Function.comp_def] at this ⊢
      exact this

theorem parse_eq (callback : σ → ServerSentEvent → Result σ) (seen : σ) (chunks : List Bytes) :
    parse callback seen chunks = (EventStream.events chunks.flatten).foldlM callback seen := by
  have hread := readLines_eq callback [] (EventStream.lines chunks.flatten) seen
  simp only [nil_append, modifyHead_self] at hread
  rw [EventStream.events, ← hread, lines_eq, parse, foldlM_feed, map_append, foldlM_append]
  simp only [bind_assoc, pure_bind]
  refine bind_congr fun next => ?_
  unfold finish
  split_ifs <;> simp

/-- Cutting a stream into chunks changes nothing: the callback gets the events of the stream, one
    after the other. -/
theorem parse_delivers_lines (chunks : List Bytes) :
    parse (fun seen event => .ok (seen ++ [event])) [] chunks
      = .ok (EventStream.events chunks.flatten) ∧
    ∀ {σ : Type} (callback : σ → ServerSentEvent → Result σ) (seen : σ),
      parse callback seen chunks = (EventStream.events chunks.flatten).foldlM callback seen := by
  refine ⟨?_, fun callback seen => parse_eq callback seen chunks⟩
  rw [parse_eq]
  generalize EventStream.events chunks.flatten = events
  induction events using reverseRecOn with
  | nil => rfl
  | append_singleton events event ih => rw [foldlM_append, ih]; rfl

end SseParser

end LangGraph

import Postgresem.Foundation.Json
import Postgresem.Foundation.Lines

/-! The server on standard input reads one request a line, and no more of a line than its limit. What
it reads depends on the bytes of the stream alone, wherever the buffers of the reader were cut. -/
namespace Postgresem.Gateway
open Lines

def newline : UInt8 := 10
def carriageReturn : UInt8 := 13

def maxRequestLineBytes : Nat := 1048576

inductive LineRead where
  | eof
  | line (line : List UInt8)
  | oversized
  deriving DecidableEq, Repr

/-- The locals of the loop. -/
structure LineState where
  line : List UInt8 := []
  oversized : Bool := false
  readAny : Bool := false

namespace LineState

/-- A slice has fewer than `2 ^ 63` elements, so the saturating sum of two lengths is their sum. -/
def extend (maximumBytes : Nat) (content : List UInt8) (state : LineState) : LineState :=
  if state.oversized then state
  else if maximumBytes < state.line.length + content.length then
    { state with oversized := true, line := [] }
  else { state with line := state.line ++ content }

def atEnd (state : LineState) : LineRead :=
  if !state.readAny then .eof
  else if state.oversized then .oversized
  else .line state.line

def stripCarriageReturn (line : List UInt8) : List UInt8 :=
  if line.getLast? = some carriageReturn then line.dropLast else line

def atNewline (state : LineState) : LineRead :=
  let line := stripCarriageReturn state.line
  if state.oversized then .oversized else .line line

end LineState

/-- A buffer without a newline is consumed whole, and the next one is what follows it. -/
def readBoundedLineFrom (maximumBytes : Nat) :
    LineState → Buffered UInt8 → LineRead × Buffered UInt8
  | state, [] => (state.atEnd, [])
  | state, buffer :: rest =>
    let state := { state with readAny := true }
    match buffer.val.idxOf? newline with
    | none => readBoundedLineFrom maximumBytes (state.extend maximumBytes buffer.val) rest
    | some position =>
      ((state.extend maximumBytes (buffer.val.take position)).atNewline,
        Buffered.consume (position + 1) (buffer :: rest))

def readBoundedLine (maximumBytes : Nat) (reader : Buffered UInt8) : LineRead × Buffered UInt8 :=
  readBoundedLineFrom maximumBytes {} reader

/-- The answer of the call after `count` others. -/
def readBoundedLineAt (maximumBytes : Nat) : Nat → Buffered UInt8 → LineRead
  | 0, reader => (readBoundedLine maximumBytes reader).1
  | count + 1, reader => readBoundedLineAt maximumBytes count (readBoundedLine maximumBytes reader).2

section Specification

/-- What a line is read as. The limit is on all that stands before the newline. -/
def lineReadOf (maximumBytes : Nat) (piece : Piece UInt8) : LineRead :=
  if maximumBytes < piece.content.length then .oversized
  else if piece.terminated then .line (LineState.stripCarriageReturn piece.content)
  else .line piece.content

def lineReadAt (maximumBytes : Nat) (stream : List UInt8) (count : Nat) : LineRead :=
  (((pieces newline stream)[count]?).map (lineReadOf maximumBytes)).getD .eof

/-- The state of the loop, computed from the bytes of the unfinished line alone. -/
def LineState.after (maximumBytes : Nat) (seen : List UInt8) : LineState where
  line := if maximumBytes < seen.length then [] else seen
  oversized := maximumBytes < seen.length
  readAny := !seen.isEmpty

end Specification

section Loop

variable {maximumBytes : Nat}

namespace LineState

theorem extend_after (seen content : List UInt8) :
    extend maximumBytes content { after maximumBytes seen with readAny := true } =
      { after maximumBytes (seen ++ content) with readAny := true } := by
  by_cases hseen : maximumBytes < seen.length
  · have hall : maximumBytes < (seen ++ content).length := by
      rw [List.length_append]
      omega
    simp only [extend, after, hseen, hall, decide_true, if_true]
  · by_cases hall : maximumBytes < (seen ++ content).length
    · have hsum : maximumBytes < seen.length + content.length := by
        rwa [List.length_append] at hall
      simp [extend, after, hseen, hsum]
    · have hsum : ¬ maximumBytes < seen.length + content.length := by
        rwa [List.length_append] at hall
      simp [extend, after, hseen, hsum]

theorem readAny_after {seen : List UInt8} (h : seen ≠ []) :
    { after maximumBytes seen with readAny := true } = after maximumBytes seen := by
  simp [after, h]

theorem atEnd_after (seen : List UInt8) :
    (after maximumBytes seen).atEnd =
      if seen = [] then .eof else lineReadOf maximumBytes ⟨seen, false⟩ := by
  by_cases hempty : seen = []
  · simp [atEnd, after, hempty]
  · by_cases hlong : maximumBytes < seen.length
    · simp [atEnd, after, lineReadOf, hempty, hlong]
    · simp [atEnd, after, lineReadOf, hempty, hlong]

theorem atNewline_after (seen : List UInt8) :
    LineState.atNewline { after maximumBytes seen with readAny := true } =
      lineReadOf maximumBytes ⟨seen, true⟩ := by
  by_cases hlong : maximumBytes < seen.length
  · simp [atNewline, after, lineReadOf, hlong]
  · simp [atNewline, after, lineReadOf, hlong]

end LineState

/-- A reader without a newline reads to its end. The bytes of the line that were seen before stand
in front of those to come. -/
theorem readBoundedLineFrom_unterminated (reader : Buffered UInt8) (seen : List UInt8)
    (h : newline ∉ reader.stream) :
    readBoundedLineFrom maximumBytes (.after maximumBytes seen) reader =
      ((LineState.after maximumBytes (seen ++ reader.stream)).atEnd, []) := by
  induction reader generalizing seen with
  | nil => rw [Buffered.stream_nil, List.append_nil, readBoundedLineFrom]
  | cons buffer rest ih =>
    rw [Buffered.stream_cons, List.mem_append, not_or] at h
    obtain ⟨hbuffer, hrest⟩ := h
    have hsome : seen ++ buffer.val ≠ [] := by
      simp [buffer.property]
    rw [readBoundedLineFrom, List.idxOf?_eq_none_iff.mpr hbuffer]
    show readBoundedLineFrom maximumBytes (LineState.extend maximumBytes buffer.val _) rest = _
    rw [LineState.extend_after, LineState.readAny_after hsome, ih _ hrest, Buffered.stream_cons,
      List.append_assoc]

/-- A reader with a newline reads to the first one, and what it leaves is what stands behind. -/
theorem readBoundedLineFrom_terminated (reader : Buffered UInt8) (seen content rest : List UInt8)
    (hstream : reader.stream = content ++ newline :: rest) (hcontent : newline ∉ content) :
    ∃ left, readBoundedLineFrom maximumBytes (.after maximumBytes seen) reader =
        (lineReadOf maximumBytes ⟨seen ++ content, true⟩, left) ∧ left.stream = rest := by
  induction reader generalizing seen content with
  | nil =>
    rw [Buffered.stream_nil] at hstream
    simp at hstream
  | cons buffer others ih =>
    rw [Buffered.stream_cons] at hstream
    cases hposition : buffer.val.idxOf? newline with
    | none =>
      have hbuffer := List.idxOf?_eq_none_iff.mp hposition
      have hsome : seen ++ buffer.val ≠ [] := by
        simp [buffer.property]
      obtain ⟨content', rfl, hothers⟩ := split_append hbuffer hstream
      rw [List.mem_append, not_or] at hcontent
      obtain ⟨left, hleft, hstream'⟩ := ih (seen ++ buffer.val) content' hothers hcontent.2
      refine ⟨left, ?_, hstream'⟩
      rw [readBoundedLineFrom, hposition]
      show readBoundedLineFrom maximumBytes (LineState.extend maximumBytes buffer.val _) others = _
      rw [LineState.extend_after, LineState.readAny_after hsome, hleft, List.append_assoc]
    | some position =>
      obtain ⟨first, behind, hfirst, hbuffer, rfl⟩ := split_of_idxOf? hposition
      rw [hbuffer, List.append_assoc, List.cons_append] at hstream
      obtain ⟨rfl, hbehind⟩ := split_unique hfirst hcontent hstream
      refine ⟨Buffered.consume (first.length + 1) (buffer :: others), ?_, ?_⟩
      · rw [readBoundedLineFrom, hposition]
        show (LineState.atNewline (LineState.extend maximumBytes _ _), _) = _
        rw [LineState.extend_after, LineState.atNewline_after, hbuffer, List.take_left]
      · rw [Buffered.stream_consume, hbuffer, ← List.drop_drop, List.drop_left, List.drop_one,
          List.tail_cons, hbehind]

/-- A call reads the first line, and leaves the others. -/
theorem readBoundedLine_spec (maximumBytes : Nat) (reader : Buffered UInt8) :
    (readBoundedLine maximumBytes reader).1 = lineReadAt maximumBytes reader.stream 0 ∧
      pieces newline (readBoundedLine maximumBytes reader).2.stream =
        (pieces newline reader.stream).tail := by
  have hstart : ({} : LineState) = .after maximumBytes [] := by
    simp [LineState.after]
  unfold readBoundedLine lineReadAt
  rw [hstart]
  obtain hnone | ⟨content, rest, hcontent, hstream⟩ := first_line newline reader.stream
  · rw [readBoundedLineFrom_unterminated reader [] hnone, List.nil_append, LineState.atEnd_after]
    by_cases hempty : reader.stream = []
    · rw [if_pos hempty, hempty]
      simp
    · rw [if_neg hempty, pieces_unterminated hnone hempty]
      simp
  · obtain ⟨left, hleft, hbehind⟩ :=
      readBoundedLineFrom_terminated reader [] content rest hstream
        hcontent
    rw [hleft, List.nil_append, hstream, pieces_terminated hcontent, hbehind]
    exact ⟨rfl, rfl⟩

end Loop

/-- Reading does not depend on where the buffers were cut: the answers are those of the lines of the
stream, one after the other, and then the end of the stream for ever. Each byte belongs to one line,
so one that is too long takes nothing from the next. -/
theorem readBoundedLineAt_eq (maximumBytes : Nat) (reader : Buffered UInt8) :
    (∀ count, readBoundedLineAt maximumBytes count reader =
      lineReadAt maximumBytes reader.stream count) ∧
    (pieces newline reader.stream).flatMap (Piece.stream newline) = reader.stream := by
  refine ⟨fun count => ?_, pieces_stream newline reader.stream⟩
  induction count generalizing reader with
  | zero => exact (readBoundedLine_spec maximumBytes reader).1
  | succ count ih =>
    have hrest := (readBoundedLine_spec maximumBytes reader).2
    rw [readBoundedLineAt, ih, lineReadAt, lineReadAt, hrest, List.getElem?_tail]

/-- A line of four bytes is too long, although no buffer is, and the next one is read without the
carriage return at its end, although the newline stands in another buffer. -/
example : (List.range 3).map (fun count => readBoundedLineAt 3 count
    [⟨[120, 120], by decide⟩, ⟨[120, 120, 10, 123], by decide⟩, ⟨[125, 13], by decide⟩,
      ⟨[10], by decide⟩]) = [.oversized, .line [123, 125], .eof] := by decide

section Serving

/-- The `data` of an error is its public code. The members of an object are written in the order of
their names. -/
def rpcError (id : Json.Value) (rpcCode : Int) (message publicCode : String) : Json.Value :=
  .object [
    ("error", .object [
      ("code", .number (toString rpcCode)),
      ("data", .object [("code", .string publicCode)]),
      ("message", .string message)]),
    ("id", id),
    ("jsonrpc", .string "2.0")]

def requestTooLarge : Json.Value :=
  rpcError .null (-32600) "request line is too large" "MCP_REQUEST_TOO_LARGE"

/-- Space, tab, newline, form feed and carriage return. -/
def isAsciiWhitespaceByte (byte : UInt8) : Bool :=
  byte == 32 || byte == 9 || byte == 10 || byte == 12 || byte == 13

theorem lineReadOf_ne_eof (maximumBytes : Nat) (piece : Piece UInt8) :
    lineReadOf maximumBytes piece ≠ .eof := by
  unfold lineReadOf
  split_ifs <;> simp

/-- A call that does not find the end of the stream takes one line from it. -/
theorem pieces_of_read {maximumBytes : Nat} {reader left : Buffered UInt8} {read : LineRead}
    (h : readBoundedLine maximumBytes reader = (read, left)) (hread : read ≠ .eof) :
    ∃ piece, pieces newline reader.stream = piece :: pieces newline left.stream ∧
      read = lineReadOf maximumBytes piece := by
  obtain ⟨hfirst, hrest⟩ := readBoundedLine_spec maximumBytes reader
  rw [h, lineReadAt] at hfirst
  rw [h] at hrest
  cases hpieces : pieces newline reader.stream with
  | nil =>
    rw [hpieces] at hfirst
    exact absurd hfirst hread
  | cons piece others =>
    rw [hpieces] at hfirst hrest
    exact ⟨piece, by rw [hrest, List.tail_cons], hfirst⟩

theorem pieces_of_eof {maximumBytes : Nat} {reader left : Buffered UInt8}
    (h : readBoundedLine maximumBytes reader = (.eof, left)) :
    pieces newline reader.stream = [] := by
  have hfirst := (readBoundedLine_spec maximumBytes reader).1
  rw [h, lineReadAt] at hfirst
  cases hpieces : pieces newline reader.stream with
  | nil => rfl
  | cons piece others =>
    rw [hpieces] at hfirst
    exact absurd hfirst.symm (lineReadOf_ne_eof maximumBytes piece)

theorem pieces_shorter {maximumBytes : Nat} {reader left : Buffered UInt8} {read : LineRead}
    (h : readBoundedLine maximumBytes reader = (read, left)) (hread : read ≠ .eof) :
    (pieces newline left.stream).length < (pieces newline reader.stream).length := by
  obtain ⟨piece, hpieces, _⟩ := pieces_of_read h hread
  rw [hpieces, List.length_cons]
  omega

/-- The messages that are written while the writer takes them. A blank line gets no answer. -/
def serveIo (handleLine : List UInt8 → Option Json.Value) (reader : Buffered UInt8) :
    List Json.Value :=
  match _hread : readBoundedLine maxRequestLineBytes reader with
  | (.eof, _) => []
  | (.oversized, left) => requestTooLarge :: serveIo handleLine left
  | (.line line, left) =>
    if line.all isAsciiWhitespaceByte then serveIo handleLine left
    else (handleLine line).toList ++ serveIo handleLine left
  termination_by (pieces newline reader.stream).length
  decreasing_by all_goals exact pieces_shorter _hread (by simp)

/-- What is answered to one line. -/
def answerTo (handleLine : List UInt8 → Option Json.Value) : LineRead → List Json.Value
  | .eof => []
  | .oversized => [requestTooLarge]
  | .line line => if line.all isAsciiWhitespaceByte then [] else (handleLine line).toList

/-- Each line of the stream is answered for itself, whatever stands before it. -/
theorem serveIo_eq (handleLine : List UInt8 → Option Json.Value) (reader : Buffered UInt8) :
    serveIo handleLine reader = (pieces newline reader.stream).flatMap fun piece =>
      answerTo handleLine (lineReadOf maxRequestLineBytes piece) := by
  fun_induction serveIo handleLine reader with
  | case1 reader left hread => rw [pieces_of_eof hread, List.flatMap_nil]
  | case2 reader left hread ih =>
    obtain ⟨piece, hpieces, hpiece⟩ := pieces_of_read hread (by simp)
    rw [hpieces, List.flatMap_cons, ← hpiece, ih]
    rfl
  | case3 reader line left hread hblank ih =>
    obtain ⟨piece, hpieces, hpiece⟩ := pieces_of_read hread (by simp)
    rw [hpieces, List.flatMap_cons, ← hpiece, ih, answerTo, if_pos hblank, List.nil_append]
  | case4 reader line left hread hblank ih =>
    obtain ⟨piece, hpieces, hpiece⟩ := pieces_of_read hread (by simp)
    rw [hpieces, List.flatMap_cons, ← hpiece, ih, answerTo, if_neg hblank]

end Serving

end Postgresem.Gateway

import Mathlib.Data.List.Basic

/-! A stream split at its separators, and a stream that is handed out in buffers of any size. -/
namespace Lines

variable {α : Type} [DecidableEq α] {separator : α}

/-- The content of one line, and whether a separator stands behind it. -/
structure Piece (α : Type) where
  content : List α
  terminated : Bool
  deriving DecidableEq, Repr

/-- The lines of a stream. What stands behind the last separator is a line unless it is empty. -/
def pieces (separator : α) (stream : List α) : List (Piece α) :=
  let parts := stream.splitOn separator
  parts.dropLast.map (fun content => ⟨content, true⟩) ++
    (parts.getLast?.toList.filter fun content => !content.isEmpty).map fun content =>
      ⟨content, false⟩

theorem pieces_terminated {content : List α} (h : separator ∉ content) (rest : List α) :
    pieces separator (content ++ separator :: rest) = ⟨content, true⟩ :: pieces separator rest := by
  have hsome := List.splitOn_ne_nil separator rest
  unfold pieces
  rw [List.splitOn_append_cons_self_of_not_mem h]
  show List.map _ (List.dropLast (content :: _)) ++ _ = _
  rw [List.dropLast_cons_of_ne_nil hsome, List.map_cons, List.cons_append]
  congr 2
  rw [List.getLast?_cons, List.getLast?_eq_some_getLast hsome]
  rfl

theorem pieces_unterminated {content : List α} (h : separator ∉ content) (hsome : content ≠ []) :
    pieces separator content = [⟨content, false⟩] := by
  unfold pieces
  rw [List.splitOn_eq_singleton h]
  simp [hsome]

@[simp] theorem pieces_nil : pieces separator ([] : List α) = [] := by
  simp [pieces]

/-- What a line took from the stream. -/
def Piece.stream (separator : α) (piece : Piece α) : List α :=
  if piece.terminated then piece.content ++ [separator] else piece.content

/-- A stream is its first line and the rest, or it has no separator. -/
theorem first_line (separator : α) (stream : List α) :
    separator ∉ stream ∨
      ∃ content rest, separator ∉ content ∧ stream = content ++ separator :: rest := by
  by_cases h : separator ∈ stream
  · obtain ⟨content, rest, hstream, hcontent⟩ := List.eq_append_cons_of_mem h
    exact .inr ⟨content, rest, hcontent, hstream⟩
  · exact .inl h

/-- Every element of the stream belongs to one line, in order. -/
theorem pieces_stream (separator : α) (stream : List α) :
    (pieces separator stream).flatMap (Piece.stream separator) = stream := by
  induction hlength : stream.length using Nat.strongRecOn generalizing stream with
  | _ length ih =>
    obtain hnone | ⟨content, rest, hcontent, rfl⟩ := first_line separator stream
    · by_cases hempty : stream = []
      · rw [hempty, pieces_nil, List.flatMap_nil]
      · rw [pieces_unterminated hnone hempty]
        simp [Piece.stream]
    · have hshorter : rest.length < length := by
        rw [← hlength, List.length_append, List.length_cons]
        omega
      rw [pieces_terminated hcontent, List.flatMap_cons, ih _ hshorter rest rfl, Piece.stream,
        if_pos rfl, List.append_assoc, List.singleton_append]

/-- Where the first separator of a buffer stands. -/
theorem split_of_idxOf? {buffer : List α} {position : Nat}
    (h : buffer.idxOf? separator = some position) :
    ∃ content rest, separator ∉ content ∧ buffer = content ++ separator :: rest ∧
      content.length = position := by
  obtain ⟨hlt, hat, hbefore⟩ := List.idxOf?_eq_some_iff.mp h
  refine ⟨buffer.take position, buffer.drop (position + 1), ?_, ?_, ?_⟩
  · intro hmem
    obtain ⟨index, hindex, hvalue⟩ := List.mem_take_iff_getElem.mp hmem
    exact hbefore index (by omega) hvalue
  · rw [← hat, List.getElem_cons_drop, List.take_append_drop]
  · rw [List.length_take]
    omega

theorem idxOf?_of_split {content : List α} (h : separator ∉ content) (rest : List α) :
    (content ++ separator :: rest).idxOf? separator = some content.length := by
  unfold List.idxOf?
  rw [List.findIdx?_append, List.findIdx?_eq_none_iff.mpr]
  · simp [List.findIdx?_cons]
  · intro a ha
    exact beq_eq_false_iff_ne.mpr fun heq => h (heq ▸ ha)

/-- There is one way to split a stream at its first separator. -/
theorem split_unique {content content' rest rest' : List α} (h : separator ∉ content)
    (h' : separator ∉ content')
    (heq : content ++ separator :: rest = content' ++ separator :: rest') :
    content = content' ∧ rest = rest' := by
  have hpieces := congrArg (pieces separator) heq
  rw [pieces_terminated h, pieces_terminated h', List.cons.injEq, Piece.mk.injEq] at hpieces
  obtain ⟨⟨rfl, _⟩, _⟩ := hpieces
  rw [List.append_cancel_left_eq, List.cons.injEq] at heq
  exact ⟨rfl, heq.2⟩

omit [DecidableEq α] in
/-- The first separator of two streams after one another is that of the second if the first has
none. -/
theorem split_append {buffer others content rest : List α} (h : separator ∉ buffer)
    (heq : buffer ++ others = content ++ separator :: rest) :
    ∃ content', content = buffer ++ content' ∧ others = content' ++ separator :: rest := by
  obtain ⟨content', hcontent, hothers⟩ | ⟨behind, hbuffer, hrest⟩ := List.append_eq_append_iff.mp heq
  · exact ⟨content', hcontent, hothers⟩
  · cases behind with
    | nil =>
      rw [List.append_nil] at hbuffer
      exact ⟨[], by rw [List.append_nil, hbuffer], hrest.symm⟩
    | cons first behind =>
      rw [List.cons_append, List.cons.injEq] at hrest
      rw [hbuffer, hrest.1] at h
      simp at h

/-- A buffer is handed out while the stream has anything left, so it is never empty. -/
abbrev Chunk (α : Type) := { buffer : List α // buffer ≠ [] }

/-- A stream that was cut into buffers. -/
abbrev Buffered (α : Type) := List (Chunk α)

namespace Buffered
omit [DecidableEq α]

def stream (reader : Buffered α) : List α := reader.flatMap Subtype.val

/-- The first `count` elements of the buffer are gone, and with its last one the buffer is. -/
def consume (count : Nat) : Buffered α → Buffered α
  | [] => []
  | buffer :: rest => if h : buffer.val.drop count ≠ [] then ⟨_, h⟩ :: rest else rest

@[simp] theorem stream_nil : stream ([] : Buffered α) = [] := rfl

@[simp] theorem stream_cons (buffer : Chunk α) (rest : Buffered α) :
    stream (buffer :: rest) = buffer.val ++ stream rest := List.flatMap_cons

theorem stream_consume (count : Nat) (buffer : Chunk α) (rest : Buffered α) :
    stream (consume count (buffer :: rest)) = buffer.val.drop count ++ stream rest := by
  by_cases h : buffer.val.drop count = []
  · rw [consume, dif_neg (not_not.mpr h), h, List.nil_append]
  · rw [consume, dif_pos h, stream_cons]

end Buffered

end Lines

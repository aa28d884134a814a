import Postgresem.Sql.Syntax

/-! A statement with its values taken out. Only the types of the literals stay, and the written
form of the erased statement is the written form of the statement with erased holes. -/
namespace Postgresem

/-- A literal of the same type that is the same for all literals of that type. -/
def Literal.erase : Literal → Literal
  | .text _ => .text ""
  | .boolean _ => .boolean false
  | .integer _ => .integer 0
  | .numeric _ => .numeric ""
  | .date _ => .date ""
  | .timestamp _ => .timestamp ""

theorem literalType_erase (value : Literal) : literalType value.erase = literalType value := by
  cases value <;> rfl

namespace Sql
open Template

def eraseParam (param : Param) : Param := (param.1, param.2.erase)

def Scalar.erase : Scalar → Scalar
  | .column reference => .column reference
  | .parameter dataType value => .parameter dataType value.erase
  | .dateMidnight value => .dateMidnight value.erase
  | .timezone _ argument => .timezone "" argument.erase
  | .dateTrunc grain argument => .dateTrunc grain argument.erase

mutual

def Predicate.erase : Predicate → Predicate
  | .compare operator left right => .compare operator left.erase right.erase
  | .inList argument values => .inList argument.erase (values.map Scalar.erase)
  | .isNull argument => .isNull argument.erase
  | .isNotNull argument => .isNotNull argument.erase
  | .and args => .and (Predicate.eraseEach args)
  | .or args => .or (Predicate.eraseEach args)
  | .not argument => .not argument.erase

def Predicate.eraseEach : List Predicate → List Predicate
  | [] => []
  | predicate :: rest => predicate.erase :: Predicate.eraseEach rest

end

def Aggregate.erase (aggregate : Aggregate) : Aggregate :=
  { aggregate with
    argument := aggregate.argument.erase
    condition := aggregate.condition.map Predicate.erase }

def Body.erase (body : Body) : Body :=
  { body with filter := body.filter.map Predicate.erase }

def Query.erase (query : Query) : Query :=
  { query with
    dimensions := query.dimensions.map fun item => (item.1.erase, item.2)
    metrics := query.metrics.map fun item => (item.1.erase, item.2)
    anchor := query.anchor.map Scalar.erase
    body := query.body.erase
    limit := 0 }

/-! ## Re-indentation and erasure -/

theorem Scalar.erase_reindent (scalar : Scalar) : scalar.erase.reindent = scalar.reindent.erase := by
  induction scalar with
  | column reference => rfl
  | parameter dataType value => rfl
  | dateMidnight value => rfl
  | timezone zone argument ih => simp [Scalar.erase, Scalar.reindent, ih]
  | dateTrunc grain argument ih => simp [Scalar.erase, Scalar.reindent, ih]

mutual

theorem Predicate.erase_reindent :
    ∀ predicate : Predicate, predicate.erase.reindent = predicate.reindent.erase
  | .compare operator left right => by
    simp only [Predicate.erase, Predicate.reindent, Scalar.erase_reindent]
  | .inList argument values => by
    simp only [Predicate.erase, Predicate.reindent, Scalar.erase_reindent, List.map_map,
      Function.comp_def]
  | .isNull argument | .isNotNull argument => by
    simp only [Predicate.erase, Predicate.reindent, Scalar.erase_reindent]
  | .and args | .or args => by
    simp only [Predicate.erase, Predicate.reindent, Predicate.eraseEach_reindent args]
  | .not argument => by
    simp only [Predicate.erase, Predicate.reindent, Predicate.erase_reindent argument]

theorem Predicate.eraseEach_reindent : ∀ args : List Predicate,
    Predicate.reindentEach (Predicate.eraseEach args) =
      Predicate.eraseEach (Predicate.reindentEach args)
  | [] => rfl
  | predicate :: rest => by
    simp only [Predicate.eraseEach, Predicate.reindentEach, Predicate.erase_reindent predicate,
      Predicate.eraseEach_reindent rest]

end

theorem Body.erase_reindent (body : Body) : body.erase.reindent = body.reindent.erase := by
  cases hf : body.filter with
  | none => simp [Body.erase, Body.reindent, hf]
  | some predicate => simp [Body.erase, Body.reindent, hf, Predicate.erase_reindent]

theorem Query.erase_emitted (query : Query) : query.erase.emitted = query.emitted.erase := by
  cases ha : query.anchor with
  | none => simp [Query.emitted, Query.erase, ha]
  | some anchor => simp [Query.emitted, Query.erase, ha, Body.erase_reindent]

/-! ## Writing an erased tree -/

/-- Erases the value of a hole and leaves the rest of a template alone. -/
abbrev erasePiece : Piece Param → Piece Param := Piece.map eraseParam

theorem joinWith_erase (separator : String) (templates : List (List (Piece Param))) :
    (joinWith separator templates).map erasePiece =
      joinWith separator (templates.map (List.map erasePiece)) := by
  induction templates with
  | nil => rfl
  | cons template rest ih =>
    cases rest with
    | nil => rfl
    | cons next rest =>
      simp only [List.map_cons] at ih
      simp only [joinWith, List.map_append, List.map_cons, ih]
      rfl

theorem Scalar.pieces_erase (scalar : Scalar) :
    scalar.erase.pieces = scalar.pieces.map erasePiece := by
  induction scalar with
  | column reference => rfl
  | parameter dataType value => rfl
  | dateMidnight value =>
    simp [Scalar.erase, Scalar.pieces, Piece.map, eraseParam, literalType_erase]
  | timezone zone argument ih =>
    simp [Scalar.erase, Scalar.pieces, Piece.map, eraseParam, Literal.erase, ih]
  | dateTrunc grain argument ih => simp [Scalar.erase, Scalar.pieces, Piece.map, ih]

mutual

theorem Predicate.pieces_erase :
    ∀ predicate : Predicate, predicate.erase.pieces = predicate.pieces.map erasePiece
  | .compare operator left right => by
    simp [Predicate.erase, Predicate.pieces, Scalar.pieces_erase, Piece.map]
  | .inList argument values => by
    simp [Predicate.erase, Predicate.pieces, Scalar.pieces_erase, Piece.map, joinWith_erase,
      Function.comp_def]
  | .isNull argument | .isNotNull argument => by
    simp [Predicate.erase, Predicate.pieces, Scalar.pieces_erase, Piece.map]
  | .and args | .or args => by
    simp [Predicate.erase, Predicate.pieces, Predicate.piecesEach_erase args, Piece.map,
      joinWith_erase]
  | .not argument => by
    simp [Predicate.erase, Predicate.pieces, Predicate.pieces_erase argument, Piece.map]

theorem Predicate.piecesEach_erase : ∀ args : List Predicate,
    Predicate.piecesEach (Predicate.eraseEach args) =
      (Predicate.piecesEach args).map (List.map erasePiece)
  | [] => rfl
  | predicate :: rest => by
    simp only [Predicate.eraseEach, Predicate.piecesEach, List.map_cons,
      Predicate.pieces_erase predicate, Predicate.piecesEach_erase rest]

end

theorem Aggregate.pieces_erase (aggregate : Aggregate) :
    aggregate.erase.pieces = aggregate.pieces.map erasePiece := by
  cases hc : aggregate.condition <;>
    simp [Aggregate.erase, Aggregate.pieces, hc, Scalar.pieces_erase, Predicate.pieces_erase,
      Piece.map]

theorem Aggregate.innerPieces_erase (aggregate : Aggregate) :
    aggregate.erase.innerPieces = aggregate.innerPieces.map erasePiece := by
  cases hc : aggregate.condition <;>
    simp [Aggregate.erase, Aggregate.innerPieces, hc, Scalar.pieces_erase, Predicate.pieces_erase,
      Piece.map]

theorem Tables.pieces_erase (newline : String) (tables : Tables) :
    (tables.pieces newline).map erasePiece = tables.pieces newline := by
  have hjoin : ∀ join : Join, (join.pieces newline).map erasePiece = join.pieces newline :=
    fun _ => rfl
  simp [Tables.pieces, Piece.map, List.map_flatten, Function.comp_def, hjoin]

theorem Body.pieces_erase (newline : String) (body : Body) :
    body.erase.pieces newline = (body.pieces newline).map erasePiece := by
  cases hf : body.filter <;>
    simp [Body.erase, Body.pieces, hf, wherePieces, Tables.pieces_erase, Predicate.pieces_erase,
      Piece.map]

theorem groupPieces_erase (count : Nat) : (groupPieces count).map erasePiece = groupPieces count := by
  unfold groupPieces
  split <;> rfl

theorem orderPieces_erase (orderBy : List OrderBy) :
    (orderPieces orderBy).map erasePiece = orderPieces orderBy := by
  have hitem : ∀ lead order, (orderItem lead order).map erasePiece = orderItem lead order :=
    fun _ _ => rfl
  cases orderBy with
  | nil => rfl
  | cons order rest => simp [orderPieces, hitem, List.map_flatten, Function.comp_def]

theorem Query.flatPieces_erase (query : Query) :
    query.erase.flatPieces = query.flatPieces.map erasePiece := by
  have hitems : query.erase.flatItems = query.flatItems.map (List.map erasePiece) := by
    simp [Query.erase, Query.flatItems, Scalar.pieces_erase, Aggregate.pieces_erase, Piece.map,
      Function.comp_def]
  simp only [Query.flatPieces, hitems, List.map_append, List.map_cons, joinWith_erase,
    groupPieces_erase]
  simp [Query.erase, Body.pieces_erase, Piece.map]

theorem Query.anchoredPieces_erase (query : Query) (anchor : Scalar) :
    query.erase.anchoredPieces anchor.erase = (query.anchoredPieces anchor).map erasePiece := by
  have hinner : query.erase.innerItems anchor.erase =
      (query.innerItems anchor).map (List.map erasePiece) := by
    simp [Query.erase, Query.innerItems, Scalar.pieces_erase, Aggregate.innerPieces_erase,
      Piece.map, List.zipIdx_map, Function.comp_def]
  have houter : query.erase.outerItems = query.outerItems.map (List.map erasePiece) := by
    simp [Query.erase, Query.outerItems, Aggregate.erase, Piece.map, List.zipIdx_map,
      Function.comp_def]
  simp only [Query.anchoredPieces, hinner, houter, List.map_append, List.map_cons, joinWith_erase,
    groupPieces_erase]
  simp [Query.erase, Body.pieces_erase, Piece.map]

theorem Query.pieces_erase (query : Query) :
    query.erase.pieces = query.pieces.map erasePiece := by
  have hselect : query.erase.selectPieces = query.selectPieces.map erasePiece := by
    cases ha : query.anchor with
    | none => simpa [Query.selectPieces, Query.erase, ha] using query.flatPieces_erase
    | some anchor => simpa [Query.selectPieces, Query.erase, ha] using
        query.anchoredPieces_erase anchor
  simp only [Query.pieces, hselect, List.map_append, orderPieces_erase]
  simp [Query.erase, Piece.map, eraseParam, Literal.erase]

theorem Query.shape_emitted_of_erase {first second : Query} (h : first.erase = second.erase) :
    shape first.emitted.pieces = shape second.emitted.pieces := by
  have hshape : ∀ query : Query, shape query.emitted.pieces = shape query.erase.emitted.pieces := by
    intro query
    rw [Query.erase_emitted, Query.pieces_erase, shape_map]
  rw [hshape first, hshape second, h]

end Sql
end Postgresem

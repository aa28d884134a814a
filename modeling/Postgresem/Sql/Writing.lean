import Postgresem.Sql.Syntax

/-! How written trees behave under re-indentation, and why their fixed text never opens or
closes a quoted token. -/
namespace Postgresem.Sql
open Template Lexing

/-! ## Re-indenting a written tree -/

def indent : Piece Param → Piece Param := Piece.substitute '\n' "\n  "

theorem reindentText_of_notMem {text : String} (h : '\n' ∉ text.toList) : reindentText text = text :=
  Text.replaceChar_of_notMem h

theorem reindentText_append (a b : String) : reindentText (a ++ b) = reindentText a ++ reindentText b :=
  Text.replaceChar_append _ _ a b

theorem reindentText_toString (n : Nat) : reindentText (toString n) = toString n :=
  reindentText_of_notMem (Text.notMem_toString (by decide) n)

@[simp] theorem indent_raw (text : String) : indent (.raw text) = .raw (reindentText text) := rfl

@[simp] theorem indent_name (lead identifier : String) :
    indent (.name lead identifier) = .name (reindentText lead) (reindentText identifier) := rfl

@[simp] theorem indent_constant (lead text : String) :
    indent (.constant lead text) = .constant (reindentText lead) (reindentText text) := rfl

@[simp] theorem indent_hole (value : Param) : indent (.hole value) = .hole value := rfl

theorem reindentText_slotName (slot : Nat) : reindentText (slotName slot) = slotName slot := by
  unfold slotName
  rw [reindentText_append, reindentText_toString]
  congr 1

theorem reindentText_castText (dataType : DataType) :
    reindentText (castText dataType) = castText dataType := by
  cases dataType <;> decide

theorem reindentText_timeGrain (grain : TimeGrain) : reindentText (timeGrain grain) = timeGrain grain := by
  cases grain <;> decide

theorem reindentText_operator (operator : ComparisonOperator) :
    reindentText (" " ++ comparisonOperator operator ++ " ") =
      " " ++ comparisonOperator operator ++ " " := by
  cases operator <;> decide

theorem joinWith_indent {separator : String} (h : reindentText separator = separator)
    (templates : List (List (Piece Param))) :
    (joinWith separator templates).map indent =
      joinWith separator (templates.map (List.map indent)) := by
  induction templates with
  | nil => rfl
  | cons template rest ih =>
    cases rest with
    | nil => rfl
    | cons next rest =>
      simp only [List.map_cons] at ih
      simp only [joinWith, List.map_append, List.map_cons, indent_raw, h, ih]

theorem Scalar.pieces_reindent (scalar : Scalar) :
    scalar.pieces.map indent = scalar.reindent.pieces := by
  induction scalar with
  | column reference =>
    have hdot : reindentText "." = "." := by decide
    simp [Scalar.pieces, Scalar.reindent, reindentText_append, reindentText_slotName, hdot]
  | parameter dataType value => simp [Scalar.pieces, Scalar.reindent, reindentText_castText]
  | dateMidnight value =>
    have hcast : reindentText "::text::date::timestamp" = "::text::date::timestamp" := by decide
    simp [Scalar.pieces, Scalar.reindent, hcast]
  | timezone zone argument ih =>
    have hopen : reindentText "timezone(" = "timezone(" := by decide
    have hcast : reindentText "::text, " = "::text, " := by decide
    have hclose : reindentText ")" = ")" := by decide
    simp [Scalar.pieces, Scalar.reindent, ih, hopen, hcast, hclose]
  | dateTrunc grain argument ih =>
    have hopen : reindentText "date_trunc(" = "date_trunc(" := by decide
    have hcomma : reindentText ", " = ", " := by decide
    have hclose : reindentText ")::date" = ")::date" := by decide
    simp [Scalar.pieces, Scalar.reindent, ih, hopen, hcomma, hclose, reindentText_timeGrain]

mutual

theorem Predicate.pieces_reindent :
    ∀ predicate : Predicate, predicate.pieces.map indent = predicate.reindent.pieces
  | .compare operator left right => by
    simp only [Predicate.pieces, Predicate.reindent, List.map_append, List.map_cons, indent_raw,
      Scalar.pieces_reindent, reindentText_operator]
  | .inList argument values => by
    have hopen : reindentText " IN (" = " IN (" := by decide
    have hclose : reindentText ")" = ")" := by decide
    have hcomma : reindentText ", " = ", " := by decide
    simp only [Predicate.pieces, Predicate.reindent, List.map_append, List.map_cons, indent_raw,
      List.map_nil, Scalar.pieces_reindent, joinWith_indent hcomma, hopen, hclose, List.map_map,
      Function.comp_def]
  | .isNull argument => by
    have hnull : reindentText " IS NULL" = " IS NULL" := by decide
    simp [Predicate.pieces, Predicate.reindent, Scalar.pieces_reindent, hnull]
  | .isNotNull argument => by
    have hnull : reindentText " IS NOT NULL" = " IS NOT NULL" := by decide
    simp [Predicate.pieces, Predicate.reindent, Scalar.pieces_reindent, hnull]
  | .and args => by
    have hopen : reindentText "(" = "(" := by decide
    have hclose : reindentText ")" = ")" := by decide
    have hand : reindentText " AND " = " AND " := by decide
    simp [Predicate.pieces, Predicate.reindent, joinWith_indent hand, hopen, hclose,
      Predicate.piecesEach_reindent args]
  | .or args => by
    have hopen : reindentText "(" = "(" := by decide
    have hclose : reindentText ")" = ")" := by decide
    have hor : reindentText " OR " = " OR " := by decide
    simp [Predicate.pieces, Predicate.reindent, joinWith_indent hor, hopen, hclose,
      Predicate.piecesEach_reindent args]
  | .not argument => by
    have hopen : reindentText "NOT (" = "NOT (" := by decide
    have hclose : reindentText ")" = ")" := by decide
    simp [Predicate.pieces, Predicate.reindent, Predicate.pieces_reindent argument, hopen, hclose]

theorem Predicate.piecesEach_reindent : ∀ args : List Predicate,
    (Predicate.piecesEach args).map (List.map indent) =
      Predicate.piecesEach (Predicate.reindentEach args)
  | [] => rfl
  | predicate :: rest => by
    simp only [Predicate.piecesEach, Predicate.reindentEach, List.map_cons,
      Predicate.pieces_reindent predicate, Predicate.piecesEach_reindent rest]

end

theorem Join.pieces_reindent (join : Join) :
    (join.pieces "\n").map indent = join.reindent.pieces "\n  " := by
  have hdot : reindentText "." = "." := by decide
  have has : reindentText " AS " = " AS " := by decide
  have hon : reindentText " ON t0." = " ON t0." := by decide
  have heq : reindentText " = " = " = " := by decide
  have hlead : reindentText ("\n" ++ joinKeyword join.joinType ++ " ") =
      "\n  " ++ joinKeyword join.joinType ++ " " := by
    cases join.joinType <;> decide
  simp only [Join.pieces, Join.reindent, Relation.reindent, List.map_cons, List.map_nil,
    indent_raw, indent_name, hlead, reindentText_append, hdot, has, hon, heq, reindentText_slotName]

theorem Tables.pieces_reindent (body : Body) :
    (body.tables.pieces "\n").map indent = body.reindent.tables.pieces "\n  " := by
  have hfrom : reindentText "FROM " = "FROM " := by decide
  have hdot : reindentText "." = "." := by decide
  have has : reindentText " AS t0" = " AS t0" := by decide
  simp only [Tables.pieces, Body.reindent, Relation.reindent, List.map_append, List.map_cons,
    List.map_nil, List.map_flatten, List.map_map, Function.comp_def, indent_raw, indent_name,
    hfrom, hdot, has, Join.pieces_reindent]

/-- The text of the body, re-indented, is the text of the re-indented body. -/
theorem Body.pieces_reindent (body : Body) :
    (body.pieces "\n").map indent = body.reindent.pieces "\n  " := by
  unfold Body.pieces
  rw [List.map_append, Tables.pieces_reindent]
  cases hf : body.filter with
  | none => simp [wherePieces, Body.reindent, hf]
  | some predicate =>
    have hwhere : reindentText ("\n" ++ "WHERE ") = "\n  " ++ "WHERE " := by decide
    simp only [wherePieces, Body.reindent, hf, Option.map_some, List.map_cons, indent_raw, hwhere,
      Predicate.pieces_reindent]

theorem assemble_body_reindent (body : Body) (pool : List Param) :
    assemble (body.reindent.pieces "\n  ") pool =
      (reindentText (assemble (body.pieces "\n") pool).1, (assemble (body.pieces "\n") pool).2) := by
  rw [← Body.pieces_reindent]
  exact replaceChar_assemble (by decide) (by decide) (by decide) _ pool

/-! ## The identifiers of a written tree -/

theorem Scalar.names_pieces (scalar : Scalar) :
    names scalar.pieces = scalar.refs.map ColumnRef.column := by
  induction scalar with
  | column reference => rfl
  | parameter dataType value => rfl
  | dateMidnight value => rfl
  | timezone zone argument ih => simp [Scalar.pieces, Scalar.refs, ih]
  | dateTrunc grain argument ih => simp [Scalar.pieces, Scalar.refs, ih]

mutual

theorem Predicate.names_pieces : ∀ predicate : Predicate,
    names predicate.pieces = predicate.refs.map ColumnRef.column
  | .compare operator left right => by
    simp [Predicate.pieces, Predicate.refs, Scalar.names_pieces]
  | .inList argument values => by
    simp [Predicate.pieces, Predicate.refs, Scalar.names_pieces, names_joinWith,
      List.flatMap_map, List.map_flatMap]
  | .isNull argument => by simp [Predicate.pieces, Predicate.refs, Scalar.names_pieces]
  | .isNotNull argument => by simp [Predicate.pieces, Predicate.refs, Scalar.names_pieces]
  | .and args => by
    simp [Predicate.pieces, Predicate.refs, names_joinWith, Predicate.names_piecesEach args]
  | .or args => by
    simp [Predicate.pieces, Predicate.refs, names_joinWith, Predicate.names_piecesEach args]
  | .not argument => by
    simp [Predicate.pieces, Predicate.refs, Predicate.names_pieces argument]

theorem Predicate.names_piecesEach : ∀ args : List Predicate,
    (Predicate.piecesEach args).flatMap names =
      (Predicate.refsEach args).map ColumnRef.column
  | [] => rfl
  | predicate :: rest => by
    simp [Predicate.piecesEach, Predicate.refsEach, Predicate.names_pieces predicate,
      Predicate.names_piecesEach rest]

end

/-- The identifiers of the body: relations, join columns and the columns of the filter. -/
def Body.identifiers (body : Body) : List String :=
  [body.tables.source.schema, body.tables.source.relation]
    ++ body.tables.joins.flatMap (fun join =>
      [join.target.schema, join.target.relation, join.fromColumn, join.toColumn])
    ++ (optionRefs body.filter).map ColumnRef.column

theorem Body.names_pieces (newline : String) (body : Body) :
    names (body.pieces newline) = body.identifiers := by
  have hjoins : (body.tables.joins.map (Join.pieces newline)).flatMap names =
      body.tables.joins.flatMap fun join =>
        [join.target.schema, join.target.relation, join.fromColumn, join.toColumn] := by
    rw [List.flatMap_map]
    rfl
  have hfilter : names (wherePieces newline body.filter) =
      (optionRefs body.filter).map ColumnRef.column := by
    cases body.filter with
    | none => rfl
    | some predicate => simp [wherePieces, optionRefs, Predicate.names_pieces]
  simp only [Body.pieces, Tables.pieces, names_append, names_name, names_raw, names_nil,
    names_flatten, hjoins, hfilter, Body.identifiers]

theorem Body.identifiers_reindent (body : Body) :
    body.reindent.identifiers = body.identifiers.map reindentText := by
  rw [← Body.names_pieces "\n  ", ← Body.pieces_reindent, ← Body.names_pieces "\n"]
  exact names_substitute '\n' "\n  " _

/-! ## Re-indentation without line breaks -/

theorem Scalar.reindent_eq_self {scalar : Scalar}
    (h : ∀ reference ∈ scalar.refs, '\n' ∉ reference.column.toList) :
    scalar.reindent = scalar := by
  induction scalar with
  | column reference =>
    have hcolumn := h reference (by simp [Scalar.refs])
    rw [Scalar.reindent, reindentText_of_notMem hcolumn]
  | parameter dataType value => rfl
  | dateMidnight value => rfl
  | timezone zone argument ih => rw [Scalar.reindent, ih h]
  | dateTrunc grain argument ih => rw [Scalar.reindent, ih h]

mutual

theorem Predicate.reindent_eq_self : ∀ predicate : Predicate,
    (∀ reference ∈ predicate.refs, '\n' ∉ reference.column.toList) →
    predicate.reindent = predicate
  | .compare operator left right, h => by
    simp only [Predicate.refs, List.mem_append] at h
    rw [Predicate.reindent, Scalar.reindent_eq_self fun r hr => h r (Or.inl hr),
      Scalar.reindent_eq_self fun r hr => h r (Or.inr hr)]
  | .inList argument values, h => by
    simp only [Predicate.refs, List.mem_append, List.mem_flatMap] at h
    have hvalues : values.map Scalar.reindent = values := by
      have hid : values.map Scalar.reindent = values.map id := by
        apply List.map_congr_left
        intro value hv
        exact Scalar.reindent_eq_self fun r hr => h r (Or.inr ⟨value, hv, hr⟩)
      rw [hid, List.map_id]
    rw [Predicate.reindent, hvalues, Scalar.reindent_eq_self fun r hr => h r (Or.inl hr)]
  | .isNull argument, h => by
    rw [Predicate.reindent, Scalar.reindent_eq_self h]
  | .isNotNull argument, h => by
    rw [Predicate.reindent, Scalar.reindent_eq_self h]
  | .and args, h => by
    rw [Predicate.reindent, Predicate.reindentEach_eq_self args h]
  | .or args, h => by
    rw [Predicate.reindent, Predicate.reindentEach_eq_self args h]
  | .not argument, h => by
    simp only [Predicate.refs] at h
    rw [Predicate.reindent, Predicate.reindent_eq_self argument h]

theorem Predicate.reindentEach_eq_self : ∀ args : List Predicate,
    (∀ reference ∈ Predicate.refsEach args, '\n' ∉ reference.column.toList) →
    Predicate.reindentEach args = args
  | [], _ => rfl
  | predicate :: rest, h => by
    simp only [Predicate.refsEach, List.mem_append] at h
    rw [Predicate.reindentEach, Predicate.reindent_eq_self predicate fun r hr => h r (Or.inl hr),
      Predicate.reindentEach_eq_self rest fun r hr => h r (Or.inr hr)]

end

theorem Body.reindent_eq_self {body : Body}
    (h : ∀ identifier ∈ body.identifiers, '\n' ∉ identifier.toList) : body.reindent = body := by
  simp only [Body.identifiers, List.mem_append, List.mem_cons, List.not_mem_nil, or_false,
    List.mem_flatMap, List.mem_map] at h
  have hsource : Relation.reindent body.tables.source = body.tables.source := by
    rw [Relation.reindent, reindentText_of_notMem (h _ (Or.inl (Or.inl (Or.inl rfl)))),
      reindentText_of_notMem (h _ (Or.inl (Or.inl (Or.inr rfl))))]
  have hjoins : body.tables.joins.map Join.reindent = body.tables.joins := by
    have hid : body.tables.joins.map Join.reindent = body.tables.joins.map id := by
      apply List.map_congr_left
      intro join hj
      have hjoin : ∀ identifier, (identifier = join.target.schema ∨
          identifier = join.target.relation ∨ identifier = join.fromColumn ∨
          identifier = join.toColumn) → reindentText identifier = identifier :=
        fun identifier hi => reindentText_of_notMem (h identifier (Or.inl (Or.inr ⟨join, hj, hi⟩)))
      rw [Join.reindent, Relation.reindent, hjoin _ (Or.inl rfl), hjoin _ (Or.inr (Or.inl rfl)),
        hjoin _ (Or.inr (Or.inr (Or.inl rfl))), hjoin _ (Or.inr (Or.inr (Or.inr rfl))), id]
    rw [hid, List.map_id]
  have hfilter : body.filter.map Predicate.reindent = body.filter := by
    cases hf : body.filter with
    | none => rfl
    | some predicate =>
      rw [Option.map_some, Predicate.reindent_eq_self predicate]
      intro reference hr
      exact h _ (Or.inr ⟨reference, by simpa [optionRefs, hf] using hr, rfl⟩)
  rw [Body.reindent, hsource, hjoins, hfilter]

/-- The anchored path emits the statement it means exactly when no identifier of the body has a
line break. -/
theorem Body.reindent_eq_self_iff {body : Body} :
    body.reindent.identifiers = body.identifiers ↔
      ∀ identifier ∈ body.identifiers, '\n' ∉ identifier.toList := by
  constructor
  · intro h identifier hm
    rw [Body.identifiers_reindent] at h
    have hid : body.identifiers.map reindentText = body.identifiers.map id := by
      rw [h, List.map_id]
    have hself : reindentText identifier = identifier := List.map_inj_left.mp hid identifier hm
    exact (Text.replaceChar_eq_self_iff (by decide)).mp hself
  · intro h
    rw [Body.reindent_eq_self h]

/-! ## Fixed text without quotes -/

theorem unquoted_slotName (slot : Nat) : Unquoted (slotName slot).toList := by
  unfold slotName
  rw [String.toList_append]
  exact Unquoted.append (by decide) (unquoted_toString slot)

theorem Scalar.clean (scalar : Scalar) : Clean scalar.pieces := by
  induction scalar with
  | column reference =>
    have hlead : Unquoted (slotName reference.slot ++ ".").toList := by
      rw [String.toList_append]
      exact (unquoted_slotName reference.slot).append (by decide)
    have hne : slotName reference.slot ++ "." ≠ "" := by simp
    simp only [Scalar.pieces, clean_cons, clean_nil, and_true]
    exact ⟨hlead, hne⟩
  | parameter dataType value =>
    have hcast : Unquoted (castText dataType).toList := by cases dataType <;> decide
    simp only [Scalar.pieces, clean_cons, clean_nil, and_true]
    exact ⟨trivial, hcast⟩
  | dateMidnight value =>
    simp only [Scalar.pieces, clean_cons, clean_nil, CleanPiece]
    decide
  | timezone zone argument ih =>
    simp only [Scalar.pieces, clean_cons, clean_append, clean_nil, CleanPiece]
    exact ⟨⟨⟨by decide, trivial, by decide, trivial⟩, ih⟩, by decide, trivial⟩
  | dateTrunc grain argument ih =>
    have hgrain : '\'' ∉ (timeGrain grain).toList := by cases grain <;> decide
    simp only [Scalar.pieces, List.cons_append, clean_cons, clean_append, clean_nil, CleanPiece]
    exact ⟨⟨by decide, by decide, hgrain⟩, by decide, ih, by decide, trivial⟩

mutual

theorem Predicate.clean : ∀ predicate : Predicate, Clean predicate.pieces
  | .compare operator left right => by
    have hop : Unquoted (" " ++ comparisonOperator operator ++ " ").toList := by
      cases operator <;> decide
    simp only [Predicate.pieces, clean_append, clean_cons]
    exact ⟨left.clean, hop, right.clean⟩
  | .inList argument values => by
    simp only [Predicate.pieces, clean_append, clean_cons, clean_nil, List.append_assoc,
      List.cons_append]
    refine ⟨argument.clean, by decide, clean_joinWith (by decide) ?_, by decide, trivial⟩
    intro template ht
    obtain ⟨value, -, rfl⟩ := List.mem_map.mp ht
    exact value.clean
  | .isNull argument => by
    simp only [Predicate.pieces, clean_append, clean_cons, clean_nil]
    exact ⟨argument.clean, by decide, trivial⟩
  | .isNotNull argument => by
    simp only [Predicate.pieces, clean_append, clean_cons, clean_nil]
    exact ⟨argument.clean, by decide, trivial⟩
  | .and args => by
    simp only [Predicate.pieces, clean_append, clean_cons, clean_nil, List.cons_append]
    exact ⟨by decide, clean_joinWith (by decide) (Predicate.cleanEach args), by decide, trivial⟩
  | .or args => by
    simp only [Predicate.pieces, clean_append, clean_cons, clean_nil, List.cons_append]
    exact ⟨by decide, clean_joinWith (by decide) (Predicate.cleanEach args), by decide, trivial⟩
  | .not argument => by
    simp only [Predicate.pieces, clean_append, clean_cons, clean_nil, List.cons_append]
    exact ⟨by decide, argument.clean, by decide, trivial⟩

theorem Predicate.cleanEach : ∀ args : List Predicate,
    ∀ template ∈ Predicate.piecesEach args, Clean template
  | [], _, h => by cases h
  | predicate :: rest, template, h => by
    rw [Predicate.piecesEach, List.mem_cons] at h
    rcases h with rfl | h
    · exact predicate.clean
    · exact Predicate.cleanEach rest template h

end

theorem Aggregate.clean (aggregate : Aggregate) : Clean aggregate.pieces := by
  have hopen : Unquoted (aggregateOpen aggregate.aggregation).toList := by
    cases aggregate.aggregation <;> decide
  unfold Aggregate.pieces
  cases aggregate.condition with
  | none =>
    simp only [List.append_nil, List.cons_append, clean_cons, clean_append, clean_nil]
    exact ⟨hopen, aggregate.argument.clean, by decide, trivial⟩
  | some condition =>
    simp only [List.cons_append, clean_cons, clean_append, clean_nil]
    exact ⟨hopen, ⟨aggregate.argument.clean, by decide, trivial⟩, by decide, condition.clean,
      by decide, trivial⟩

theorem Aggregate.innerClean (aggregate : Aggregate) : Clean aggregate.innerPieces := by
  unfold Aggregate.innerPieces
  cases aggregate.condition with
  | none =>
    simp only [List.cons_append, clean_cons, clean_append, clean_nil]
    exact ⟨by decide, aggregate.argument.clean, by decide, trivial⟩
  | some condition =>
    simp only [List.cons_append, List.append_assoc, clean_cons, clean_append, clean_nil]
    exact ⟨by decide, condition.clean, by decide, aggregate.argument.clean, by decide, trivial⟩

/-- The line breaks that the two paths put before a clause. -/
def IsBreak (newline : String) : Prop := newline = "\n" ∨ newline = "\n  "

theorem Join.clean {newline : String} (h : IsBreak newline) (join : Join) :
    Clean (join.pieces newline) := by
  have hlead : Unquoted (newline ++ joinKeyword join.joinType ++ " ").toList ∧
      newline ++ joinKeyword join.joinType ++ " " ≠ "" := by
    rcases h with rfl | rfl <;> cases join.joinType <;> decide
  have has : Unquoted (" AS " ++ slotName join.slot).toList := by
    rw [String.toList_append]
    exact Unquoted.append (by decide) (unquoted_slotName join.slot)
  have hon : Unquoted (" = " ++ slotName join.slot ++ ".").toList := by
    rw [String.toList_append, String.toList_append]
    exact (Unquoted.append (by decide) (unquoted_slotName join.slot)).append (by decide)
  simp only [Join.pieces, clean_cons, clean_nil, CleanPiece]
  exact ⟨hlead, by decide, has, by decide, ⟨hon, by simp⟩, trivial⟩

theorem Body.clean {newline : String} (h : IsBreak newline) (body : Body) :
    Clean (body.pieces newline) := by
  have hjoins : Clean (body.tables.joins.map (Join.pieces newline)).flatten := by
    apply clean_flatten
    intro template ht
    obtain ⟨join, -, rfl⟩ := List.mem_map.mp ht
    exact join.clean h
  have hwhere : Clean (wherePieces newline body.filter) := by
    cases body.filter with
    | none => simp [wherePieces]
    | some predicate =>
      simp only [wherePieces, clean_cons, CleanPiece]
      refine ⟨?_, predicate.clean⟩
      rcases h with rfl | rfl <;> decide
  simp only [Body.pieces, Tables.pieces, clean_append, clean_cons, clean_nil, CleanPiece]
  exact ⟨⟨by decide, hjoins⟩, hwhere⟩

theorem unquoted_intercalate {separator : String} (hs : Unquoted separator.toList) :
    ∀ {texts : List String}, (∀ text ∈ texts, Unquoted text.toList) →
      Unquoted (separator.intercalate texts).toList
  | [], _ => by
    rw [String.intercalate_nil]
    decide
  | [text], h => by simpa using h text (by simp)
  | text :: next :: rest, h => by
    rw [String.intercalate_cons_cons, String.toList_append, String.toList_append]
    refine ((h text (by simp)).append hs).append (unquoted_intercalate hs ?_)
    intro other ho
    exact h other (List.mem_cons_of_mem _ ho)

theorem unquoted_positionalGroupBy (count start : Nat) :
    Unquoted (positionalGroupBy count start).toList := by
  apply unquoted_intercalate (by decide)
  intro text ht
  obtain ⟨index, -, rfl⟩ := List.mem_map.mp ht
  exact unquoted_toString _

theorem groupPieces_clean (count : Nat) : Clean (groupPieces count) := by
  unfold groupPieces
  split
  · exact clean_nil
  next h =>
    simp only [clean_cons, clean_nil, CleanPiece, groupByClause, h, if_false, and_true]
    rw [String.toList_append]
    exact Unquoted.append (by decide) (unquoted_positionalGroupBy count 1)

theorem orderPieces_clean (orderBy : List OrderBy) : Clean (orderPieces orderBy) := by
  have hitem : ∀ lead : String, Unquoted lead.toList → lead ≠ "" → ∀ order : OrderBy,
      Clean (orderItem lead order) := by
    intro lead hlead hne order
    have hdir : Unquoted (" " ++ sortDirection order.direction).toList := by
      cases order.direction <;> decide
    simp only [orderItem, clean_cons, clean_nil, CleanPiece]
    exact ⟨⟨hlead, hne⟩, hdir, trivial⟩
  cases orderBy with
  | nil => exact clean_nil
  | cons order rest =>
    simp only [orderPieces, clean_append]
    refine ⟨hitem _ (by decide) (by decide) order, clean_flatten ?_⟩
    intro template ht
    obtain ⟨other, -, rfl⟩ := List.mem_map.mp ht
    exact hitem _ (by decide) (by decide) other

theorem clean_alias {template : List (Piece Param)} (h : Clean template) (name : String) :
    Clean (template ++ [.name " AS " name]) := by
  simp only [clean_append, clean_cons, clean_nil, CleanPiece]
  exact ⟨h, by decide⟩

theorem Query.flatClean (query : Query) : Clean query.flatPieces := by
  have hitems : Clean (joinWith ", " query.flatItems) := by
    apply clean_joinWith (by decide)
    intro template ht
    simp only [Query.flatItems, List.mem_append, List.mem_map] at ht
    rcases ht with ⟨item, -, rfl⟩ | ⟨item, -, rfl⟩
    · exact clean_alias item.1.clean item.2
    · exact clean_alias item.1.clean item.2
  simp only [Query.flatPieces, List.cons_append, List.append_assoc, clean_cons, clean_append]
  exact ⟨by decide, hitems, by decide, query.body.clean (Or.inl rfl), groupPieces_clean _⟩

theorem Query.anchoredClean (query : Query) (anchor : Scalar) :
    Clean (query.anchoredPieces anchor) := by
  have hinner : Clean (joinWith ", " (query.innerItems anchor)) := by
    apply clean_joinWith (by decide)
    intro template ht
    simp only [Query.innerItems, List.mem_append, List.mem_map, List.mem_singleton] at ht
    rcases ht with (⟨item, -, rfl⟩ | rfl) | ⟨item, -, rfl⟩
    · exact clean_alias item.1.1.clean _
    · exact clean_alias anchor.clean _
    · exact clean_alias item.1.1.innerClean _
  have houter : Clean (joinWith ", " query.outerItems) := by
    apply clean_joinWith (by decide)
    intro template ht
    simp only [Query.outerItems, List.mem_append, List.mem_map] at ht
    rcases ht with ⟨item, -, rfl⟩ | ⟨item, -, rfl⟩
    · simp only [clean_cons, clean_nil, CleanPiece]
      decide
    · have hopen : Unquoted (aggregateOpen item.1.1.aggregation).toList := by
        cases item.1.1.aggregation <;> decide
      simp only [clean_cons, clean_nil, CleanPiece]
      exact ⟨hopen, by decide⟩
  have hgroup : Unquoted ("\n  GROUP BY " ++ positionalGroupBy (query.dimensions.length + 1) 1
      ++ "\n)\nSELECT ").toList := by
    rw [String.toList_append, String.toList_append]
    exact (Unquoted.append (by decide) (unquoted_positionalGroupBy _ 1)).append (by decide)
  simp only [Query.anchoredPieces, List.cons_append, List.append_assoc, clean_cons, clean_append]
  exact ⟨by decide, by decide, hinner, by decide, query.body.clean (Or.inr rfl), hgroup, houter,
    by decide, by decide, groupPieces_clean _⟩

theorem Query.clean (query : Query) : Clean query.pieces := by
  have hselect : Clean query.selectPieces := by
    unfold Query.selectPieces
    split
    · exact query.anchoredClean _
    · exact query.flatClean
  simp only [Query.pieces, clean_append, clean_cons, clean_nil]
  exact ⟨⟨hselect, orderPieces_clean _⟩, by decide, trivial, by decide, trivial⟩

end Postgresem.Sql

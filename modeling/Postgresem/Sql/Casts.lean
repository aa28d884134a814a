import Postgresem.Foundation.Placeholders
import Postgresem.Sql.Writing

/-! Every placeholder of a written tree is cast to the type its value was recorded with. A cast is
what follows the placeholder up to the first character that no cast has. -/
namespace Postgresem.Sql
open Template Lexing Placeholders

/-- The characters of `::text::bigint` and its like. -/
def isCastCharacter (character : Char) : Bool :=
  character == ':' || ('a' ≤ character && character ≤ 'z')

/-- The cast to the type, followed by a second one for a date that is read as a midnight. -/
def CastsAs (dataType : DataType) (cast : List Char) : Prop :=
  cast = (castText dataType).toList ∨
    (dataType = .date ∧ cast = "::text::date::timestamp".toList)

/-- The placeholders of a template are its holes, and each of them has its cast. -/
structure Hosted (template : List (Piece Param)) : Prop where
  undollared : ∀ p ∈ template, Undollared p
  casts : ∀ site ∈ sites isCastCharacter (items template), CastsAs site.1.1 site.2

/-- The template ends a cast that stands before it. -/
def Breaks (template : List (Piece Param)) : Prop := suffix isCastCharacter (items template) = []

def startsBreak (text : String) : Bool := text.toList.head?.any fun c => !isCastCharacter c

theorem suffix_of_startsBreak {text : String} (h : startsBreak text = true)
    (rest : List (Item Param)) : suffix isCastCharacter (fixedItems text ++ rest) = [] := by
  obtain ⟨c, hc, hbreak⟩ := Option.any_eq_true _ _ |>.mp h
  exact suffix_eq_nil isCastCharacter hc (by simpa using hbreak)

theorem breaks_nil : Breaks [] := rfl

theorem breaks_raw {text : String} (h : startsBreak text = true) (rest : List (Piece Param)) :
    Breaks (.raw text :: rest) := suffix_of_startsBreak h _

theorem breaks_name {lead : String} (h : startsBreak lead = true) (identifier : String)
    (rest : List (Piece Param)) : Breaks (.name lead identifier :: rest) :=
  suffix_of_startsBreak h _

theorem hosted_nil : Hosted [] := ⟨by simp, by simp [sites]⟩

theorem hosted_raw {text : String} {rest : List (Piece Param)} (h : '$' ∉ text.toList)
    (hrest : Hosted rest) : Hosted (.raw text :: rest) := by
  refine ⟨List.forall_mem_cons.mpr ⟨h, hrest.undollared⟩, ?_⟩
  rw [items_raw, sites_fixedItems]
  exact hrest.casts

theorem hosted_name {lead identifier : String} {rest : List (Piece Param)} (h : '$' ∉ lead.toList)
    (hrest : Hosted rest) : Hosted (.name lead identifier :: rest) := by
  refine ⟨List.forall_mem_cons.mpr ⟨h, hrest.undollared⟩, ?_⟩
  rw [items_name, sites_fixedItems]
  exact hrest.casts

theorem hosted_constant {lead text : String} {rest : List (Piece Param)} (h : '$' ∉ lead.toList)
    (hrest : Hosted rest) : Hosted (.constant lead text :: rest) := by
  refine ⟨List.forall_mem_cons.mpr ⟨h, hrest.undollared⟩, ?_⟩
  rw [items_constant, sites_fixedItems]
  exact hrest.casts

theorem Hosted.append {xs ys : List (Piece Param)} (hx : Hosted xs) (hy : Hosted ys)
    (hbreaks : Breaks ys) : Hosted (xs ++ ys) := by
  constructor
  · exact List.forall_mem_append.mpr ⟨hx.undollared, hy.undollared⟩
  · rw [items_append, sites_append isCastCharacter hbreaks]
    exact List.forall_mem_append.mpr ⟨hx.casts, hy.casts⟩

theorem hosted_hole {param : Param} {text : String} {rest : List (Piece Param)}
    (hdollar : '$' ∉ text.toList)
    (hcast : CastsAs param.1 (suffix isCastCharacter (items (.raw text :: rest))))
    (hrest : Hosted rest) : Hosted (.hole param :: .raw text :: rest) := by
  have hraw := hosted_raw hdollar hrest
  refine ⟨List.forall_mem_cons.mpr ⟨trivial, hraw.undollared⟩, ?_⟩
  rw [items_hole, sites, List.forall_mem_cons]
  exact ⟨hcast, hraw.casts⟩

theorem suffix_cast {cast : String} (h : cast.toList.all isCastCharacter = true)
    {rest : List (Piece Param)} (hbreaks : Breaks rest) :
    suffix isCastCharacter (items (.raw cast :: rest)) = cast.toList := by
  rw [items_raw, suffix_fixedItems isCastCharacter h, hbreaks, List.append_nil]

theorem hosted_joinWith {separator : String} (hdollar : '$' ∉ separator.toList)
    (hbreak : startsBreak separator = true) {templates : List (List (Piece Param))}
    (h : ∀ template ∈ templates, Hosted template) : Hosted (joinWith separator templates) := by
  induction templates with
  | nil => exact hosted_nil
  | cons template rest ih =>
    cases rest with
    | nil => exact h template (by simp)
    | cons next rest =>
      rw [joinWith]
      exact (h template (by simp)).append
        (hosted_raw hdollar (ih fun other ho => h other (by simp [ho]))) (breaks_raw hbreak _)

/-! ## Trees whose midnights are dates -/

def Scalar.Dated : Scalar → Prop
  | .column _ | .parameter _ _ => True
  | .dateMidnight value => literalType value = .date
  | .timezone _ argument | .dateTrunc _ argument => argument.Dated

mutual

def Predicate.Dated : Predicate → Prop
  | .compare _ left right => left.Dated ∧ right.Dated
  | .inList argument values => argument.Dated ∧ ∀ value ∈ values, value.Dated
  | .isNull argument | .isNotNull argument => argument.Dated
  | .and args | .or args => Predicate.DatedEach args
  | .not argument => argument.Dated

def Predicate.DatedEach : List Predicate → Prop
  | [] => True
  | predicate :: rest => predicate.Dated ∧ Predicate.DatedEach rest

end

structure Query.Dated (query : Query) : Prop where
  dimensions : ∀ item ∈ query.dimensions, item.1.Dated
  metrics : ∀ item ∈ query.metrics, item.1.argument.Dated ∧
    ∀ condition, item.1.condition = some condition → condition.Dated
  anchor : ∀ anchor, query.anchor = some anchor → anchor.Dated
  filter : ∀ filter, query.body.filter = some filter → filter.Dated

theorem Scalar.Dated.reindent {scalar : Scalar} (h : scalar.Dated) : scalar.reindent.Dated := by
  induction scalar with
  | column reference => trivial
  | parameter dataType value => trivial
  | dateMidnight value => exact h
  | timezone zone argument ih => exact ih h
  | dateTrunc grain argument ih => exact ih h

mutual

theorem Predicate.Dated.reindent : ∀ {predicate : Predicate}, predicate.Dated →
    predicate.reindent.Dated
  | .compare operator left right, h => by
    rw [Predicate.Dated] at h
    rw [Predicate.reindent, Predicate.Dated]
    exact ⟨h.1.reindent, h.2.reindent⟩
  | .inList argument values, h => by
    rw [Predicate.Dated] at h
    rw [Predicate.reindent, Predicate.Dated]
    refine ⟨h.1.reindent, ?_⟩
    intro value hv
    obtain ⟨original, ho, rfl⟩ := List.mem_map.mp hv
    exact (h.2 original ho).reindent
  | .isNull argument, h => by
    rw [Predicate.Dated] at h
    rw [Predicate.reindent, Predicate.Dated]
    exact h.reindent
  | .isNotNull argument, h => by
    rw [Predicate.Dated] at h
    rw [Predicate.reindent, Predicate.Dated]
    exact h.reindent
  | .and args, h => by
    rw [Predicate.Dated] at h
    rw [Predicate.reindent, Predicate.Dated]
    exact Predicate.DatedEach.reindent h
  | .or args, h => by
    rw [Predicate.Dated] at h
    rw [Predicate.reindent, Predicate.Dated]
    exact Predicate.DatedEach.reindent h
  | .not argument, h => by
    rw [Predicate.Dated] at h
    rw [Predicate.reindent, Predicate.Dated]
    exact Predicate.Dated.reindent h

theorem Predicate.DatedEach.reindent : ∀ {args : List Predicate}, Predicate.DatedEach args →
    Predicate.DatedEach (Predicate.reindentEach args)
  | [], _ => trivial
  | predicate :: rest, h => by
    rw [Predicate.DatedEach] at h
    rw [Predicate.reindentEach, Predicate.DatedEach]
    exact ⟨Predicate.Dated.reindent h.1, Predicate.DatedEach.reindent h.2⟩

end

theorem Query.Dated.emitted {query : Query} (h : query.Dated) : query.emitted.Dated := by
  unfold Query.emitted
  split
  next anchor hanchor =>
    refine ⟨h.dimensions, h.metrics, h.anchor, ?_⟩
    intro filter hfilter
    simp only [Body.reindent, Option.map_eq_some_iff] at hfilter
    obtain ⟨original, ho, rfl⟩ := hfilter
    exact (h.filter original ho).reindent
  next => exact h

/-! ## Hosted trees -/

theorem castText_characters (dataType : DataType) :
    (castText dataType).toList.all isCastCharacter = true := by
  cases dataType <;> decide

theorem undollared_toString (n : Nat) : '$' ∉ (toString n).toList :=
  Text.notMem_toString (by decide) n

theorem undollared_slotName (slot : Nat) : '$' ∉ (slotName slot).toList := by
  rw [slotName, String.toList_append, List.mem_append, not_or]
  exact ⟨by decide, undollared_toString slot⟩

theorem undollared_castText (dataType : DataType) : '$' ∉ (castText dataType).toList := by
  cases dataType <;> decide

/-- The zone of a `timezone` call, with the comma that ends its cast. -/
theorem suffix_zone (rest : List (Piece Param)) :
    suffix isCastCharacter (items (.raw "::text, " :: rest)) = "::text".toList := by
  have htext : fixedItems "::text, " = fixedItems (π := Param) "::text" ++ fixedItems ", " := rfl
  rw [items_raw, htext, List.append_assoc, suffix_fixedItems isCastCharacter (by decide),
    suffix_of_startsBreak (by decide), List.append_nil]

theorem hosted_close {template : List (Piece Param)} (h : Hosted template) {text : String}
    (hdollar : '$' ∉ text.toList) (hbreak : startsBreak text = true) :
    Hosted (template ++ [.raw text]) :=
  h.append (hosted_raw hdollar hosted_nil) (breaks_raw hbreak [])

theorem Scalar.hosted {scalar : Scalar} (h : scalar.Dated) : Hosted scalar.pieces := by
  induction scalar with
  | column reference =>
    refine hosted_name ?_ hosted_nil
    rw [String.toList_append, List.mem_append, not_or]
    exact ⟨undollared_slotName _, by decide⟩
  | parameter dataType value =>
    refine hosted_hole (undollared_castText dataType) (Or.inl ?_) hosted_nil
    exact suffix_cast (castText_characters dataType) breaks_nil
  | dateMidnight value =>
    refine hosted_hole (by decide) (Or.inr ⟨h, ?_⟩) hosted_nil
    exact suffix_cast (by decide) breaks_nil
  | timezone zone argument ih =>
    have hargument : Hosted (argument.pieces ++ [.raw ")"]) :=
      hosted_close (ih h) (by decide) (by decide)
    refine hosted_raw (by decide) (hosted_hole (by decide) (Or.inl ?_) hargument)
    exact suffix_zone _
  | dateTrunc grain argument ih =>
    have hargument : Hosted (argument.pieces ++ [.raw ")::date"]) :=
      hosted_close (ih h) (by decide) (by decide)
    exact hosted_constant (by decide) (hosted_raw (by decide) hargument)

theorem hosted_operator (operator : ComparisonOperator) :
    '$' ∉ (" " ++ comparisonOperator operator ++ " ").toList ∧
      startsBreak (" " ++ comparisonOperator operator ++ " ") = true := by
  cases operator <;> decide

mutual

theorem Predicate.hosted : ∀ {predicate : Predicate}, predicate.Dated → Hosted predicate.pieces
  | .compare operator left right, h => by
    rw [Predicate.Dated] at h
    obtain ⟨hdollar, hbreak⟩ := hosted_operator operator
    exact (Scalar.hosted h.1).append (hosted_raw hdollar (Scalar.hosted h.2)) (breaks_raw hbreak _)
  | .inList argument values, h => by
    rw [Predicate.Dated] at h
    have hvalues : ∀ template ∈ values.map Scalar.pieces, Hosted template := by
      intro template ht
      obtain ⟨value, hv, rfl⟩ := List.mem_map.mp ht
      exact Scalar.hosted (h.2 value hv)
    have hlist : Hosted (joinWith ", " (values.map Scalar.pieces) ++ [.raw ")"]) :=
      hosted_close (hosted_joinWith (by decide) (by decide) hvalues) (by decide) (by decide)
    rw [Predicate.pieces, List.append_assoc, List.cons_append]
    exact (Scalar.hosted h.1).append (hosted_raw (by decide) hlist) (breaks_raw (by decide) _)
  | .isNull argument, h => by
    rw [Predicate.Dated] at h
    exact hosted_close (Scalar.hosted h) (by decide) (by decide)
  | .isNotNull argument, h => by
    rw [Predicate.Dated] at h
    exact hosted_close (Scalar.hosted h) (by decide) (by decide)
  | .and args, h => by
    rw [Predicate.Dated] at h
    exact hosted_raw (by decide) (hosted_close (hosted_joinWith (by decide) (by decide)
      (Predicate.hostedEach h)) (by decide) (by decide))
  | .or args, h => by
    rw [Predicate.Dated] at h
    exact hosted_raw (by decide) (hosted_close (hosted_joinWith (by decide) (by decide)
      (Predicate.hostedEach h)) (by decide) (by decide))
  | .not argument, h => by
    rw [Predicate.Dated] at h
    exact hosted_raw (by decide) (hosted_close (Predicate.hosted h) (by decide) (by decide))

theorem Predicate.hostedEach : ∀ {args : List Predicate}, Predicate.DatedEach args →
    ∀ template ∈ Predicate.piecesEach args, Hosted template
  | [], _, template, ht => by cases ht
  | predicate :: rest, h, template, ht => by
    rw [Predicate.DatedEach] at h
    rw [Predicate.piecesEach, List.mem_cons] at ht
    rcases ht with rfl | ht
    · exact Predicate.hosted h.1
    · exact Predicate.hostedEach h.2 template ht

end

theorem undollared_aggregateOpen (aggregation : Aggregation) :
    '$' ∉ (aggregateOpen aggregation).toList := by
  cases aggregation <;> decide

theorem Aggregate.hosted {aggregate : Aggregate} (hargument : aggregate.argument.Dated)
    (hcondition : ∀ condition, aggregate.condition = some condition → condition.Dated) :
    Hosted aggregate.pieces := by
  have hcall : Hosted (.raw (aggregateOpen aggregate.aggregation) :: aggregate.argument.pieces
      ++ [.raw ")"]) :=
    hosted_raw (undollared_aggregateOpen _)
      (hosted_close (Scalar.hosted hargument) (by decide) (by decide))
  unfold Aggregate.pieces
  cases hsome : aggregate.condition with
  | none => simpa using hcall
  | some condition =>
    have hfilter : Hosted (.raw " FILTER (WHERE " :: condition.pieces ++ [.raw ")"]) :=
      hosted_raw (by decide)
        (hosted_close (Predicate.hosted (hcondition condition hsome)) (by decide) (by decide))
    exact hcall.append hfilter (breaks_raw (by decide) _)

theorem Aggregate.innerHosted {aggregate : Aggregate} (hargument : aggregate.argument.Dated)
    (hcondition : ∀ condition, aggregate.condition = some condition → condition.Dated) :
    Hosted aggregate.innerPieces := by
  unfold Aggregate.innerPieces
  cases hsome : aggregate.condition with
  | none =>
    exact hosted_raw (by decide)
      (hosted_close (Scalar.hosted hargument) (by decide) (by decide))
  | some condition =>
    have hthen : Hosted (.raw " THEN " :: (aggregate.argument.pieces ++ [.raw " END)"])) :=
      hosted_raw (by decide)
        (hosted_close (Scalar.hosted hargument) (by decide) (by decide))
    have hcase := (Predicate.hosted (hcondition condition hsome)).append hthen
      (breaks_raw (by decide) _)
    have hmax : Hosted (.raw "max(CASE WHEN " :: (condition.pieces
        ++ .raw " THEN " :: (aggregate.argument.pieces ++ [.raw " END)"]))) :=
      hosted_raw (by decide) hcase
    simpa using hmax

theorem hosted_alias {template : List (Piece Param)} (h : Hosted template) (name : String) :
    Hosted (template ++ [.name " AS " name]) :=
  h.append (hosted_name (by decide) hosted_nil) (breaks_name (by decide) name [])

theorem Breaks.append {xs ys : List (Piece Param)} (hx : Breaks xs) (hy : Breaks ys) :
    Breaks (xs ++ ys) := by
  rw [Breaks, items_append, suffix_append isCastCharacter hy]
  exact hx

theorem hosted_flatten {templates : List (List (Piece Param))}
    (h : ∀ template ∈ templates, Hosted template ∧ Breaks template) :
    Hosted templates.flatten ∧ Breaks templates.flatten := by
  induction templates with
  | nil => exact ⟨hosted_nil, breaks_nil⟩
  | cons template rest ih =>
    obtain ⟨hhosted, hbreaks⟩ := h template (by simp)
    obtain ⟨hrest, hrestBreaks⟩ := ih fun other ho => h other (by simp [ho])
    exact ⟨hhosted.append hrest hrestBreaks, hbreaks.append hrestBreaks⟩

theorem Join.hosted {newline : String} (h : IsBreak newline) (join : Join) :
    Hosted (join.pieces newline) ∧ Breaks (join.pieces newline) := by
  have hlead : '$' ∉ (newline ++ joinKeyword join.joinType ++ " ").toList ∧
      startsBreak (newline ++ joinKeyword join.joinType ++ " ") = true := by
    rcases h with rfl | rfl <;> cases join.joinType <;> decide
  have hslot : ∀ before after : String, '$' ∉ before.toList → '$' ∉ after.toList →
      '$' ∉ (before ++ slotName join.slot ++ after).toList := by
    intro before after hbefore hafter
    simp only [String.toList_append, List.mem_append, not_or]
    exact ⟨⟨hbefore, undollared_slotName join.slot⟩, hafter⟩
  have has : '$' ∉ (" AS " ++ slotName join.slot).toList := by
    simpa using hslot " AS " "" (by decide) (by decide)
  have hon := hslot " = " "." (by decide) (by decide)
  exact ⟨hosted_name hlead.1 (hosted_name (by decide) (hosted_raw has (hosted_name (by decide)
    (hosted_name hon hosted_nil)))), breaks_name hlead.2 _ _⟩

theorem Body.hosted {newline : String} (h : IsBreak newline) {body : Body}
    (hfilter : ∀ filter, body.filter = some filter → filter.Dated) :
    Hosted (body.pieces newline) := by
  have hjoins : Hosted (body.tables.joins.map (Join.pieces newline)).flatten ∧
      Breaks (body.tables.joins.map (Join.pieces newline)).flatten := by
    apply hosted_flatten
    intro template ht
    obtain ⟨join, -, rfl⟩ := List.mem_map.mp ht
    exact join.hosted h
  have hwhere : Hosted (wherePieces newline body.filter) ∧
      Breaks (wherePieces newline body.filter) := by
    cases hsome : body.filter with
    | none => exact ⟨hosted_nil, breaks_nil⟩
    | some filter =>
      have hlead : '$' ∉ (newline ++ "WHERE ").toList ∧ startsBreak (newline ++ "WHERE ") = true := by
        rcases h with rfl | rfl <;> decide
      exact ⟨hosted_raw hlead.1 (Predicate.hosted (hfilter filter hsome)), breaks_raw hlead.2 _⟩
  have hfrom : Hosted [.name "FROM " body.tables.source.schema,
      .name "." body.tables.source.relation, .raw " AS t0"] :=
    hosted_name (by decide) (hosted_name (by decide) (hosted_raw (by decide) hosted_nil))
  exact (hfrom.append hjoins.1 hjoins.2).append hwhere.1 hwhere.2

theorem undollared_intercalate {separator : String} (hs : '$' ∉ separator.toList) :
    ∀ {texts : List String}, (∀ text ∈ texts, '$' ∉ text.toList) →
      '$' ∉ (separator.intercalate texts).toList
  | [], _ => by
    rw [String.intercalate_nil]
    decide
  | [text], h => by simpa using h text (by simp)
  | text :: next :: rest, h => by
    rw [String.intercalate_cons_cons]
    simp only [String.toList_append, List.mem_append, not_or]
    exact ⟨⟨h text (by simp), hs⟩,
      undollared_intercalate hs fun other ho => h other (List.mem_cons_of_mem _ ho)⟩

theorem undollared_positionalGroupBy (count start : Nat) :
    '$' ∉ (positionalGroupBy count start).toList := by
  apply undollared_intercalate (by decide)
  intro text ht
  obtain ⟨index, -, rfl⟩ := List.mem_map.mp ht
  exact undollared_toString _

theorem startsBreak_append {before : String} (h : startsBreak before = true) (after : String) :
    startsBreak (before ++ after) = true := by
  unfold startsBreak at h ⊢
  rw [String.toList_append]
  cases hlist : before.toList with
  | nil => simp [hlist] at h
  | cons c cs => simpa [hlist] using h

theorem groupPieces_hosted (count : Nat) : Hosted (groupPieces count) ∧ Breaks (groupPieces count) := by
  unfold groupPieces
  split
  · exact ⟨hosted_nil, breaks_nil⟩
  next h =>
    have htext : '$' ∉ (groupByClause count).toList := by
      rw [groupByClause, if_neg h, String.toList_append, List.mem_append, not_or]
      exact ⟨by decide, undollared_positionalGroupBy count 1⟩
    have hbreak : startsBreak (groupByClause count) = true := by
      rw [groupByClause, if_neg h]
      exact startsBreak_append (by decide) _
    exact ⟨hosted_raw htext hosted_nil, breaks_raw hbreak []⟩

theorem orderPieces_hosted (orderBy : List OrderBy) :
    Hosted (orderPieces orderBy) ∧ Breaks (orderPieces orderBy) := by
  have hitem : ∀ lead : String, '$' ∉ lead.toList → startsBreak lead = true → ∀ order : OrderBy,
      Hosted (orderItem lead order) ∧ Breaks (orderItem lead order) := by
    intro lead hlead hbreak order
    have hdirection : '$' ∉ (" " ++ sortDirection order.direction).toList := by
      cases order.direction <;> decide
    exact ⟨hosted_name hlead (hosted_raw hdirection hosted_nil), breaks_name hbreak _ _⟩
  cases orderBy with
  | nil => exact ⟨hosted_nil, breaks_nil⟩
  | cons order rest =>
    obtain ⟨hfirst, hfirstBreaks⟩ := hitem "\nORDER BY " (by decide) (by decide) order
    have hothers : ∀ template ∈ rest.map (orderItem ", "), Hosted template ∧ Breaks template := by
      intro template ht
      obtain ⟨other, -, rfl⟩ := List.mem_map.mp ht
      exact hitem ", " (by decide) (by decide) other
    obtain ⟨hrest, hrestBreaks⟩ := hosted_flatten hothers
    exact ⟨hfirst.append hrest hrestBreaks, hfirstBreaks.append hrestBreaks⟩

section Query
variable {query : Query} (h : query.Dated)
include h

theorem Query.flatHosted : Hosted query.flatPieces := by
  have hitems : Hosted (joinWith ", " query.flatItems) := by
    apply hosted_joinWith (by decide) (by decide)
    intro template ht
    simp only [Query.flatItems, List.mem_append, List.mem_map] at ht
    rcases ht with ⟨item, hi, rfl⟩ | ⟨item, hi, rfl⟩
    · exact hosted_alias (Scalar.hosted (h.dimensions item hi)) item.2
    · exact hosted_alias (Aggregate.hosted (h.metrics item hi).1 (h.metrics item hi).2) item.2
  have hgroup := groupPieces_hosted query.dimensions.length
  have hbody : Hosted (.raw "\n" :: query.body.pieces "\n") :=
    hosted_raw (by decide) (Body.hosted (Or.inl rfl) h.filter)
  have htail : Hosted (.raw "\n" :: query.body.pieces "\n" ++ groupPieces query.dimensions.length) :=
    hbody.append hgroup.1 hgroup.2
  have hselect : Hosted (.raw "SELECT " :: (joinWith ", " query.flatItems
      ++ (.raw "\n" :: query.body.pieces "\n" ++ groupPieces query.dimensions.length))) :=
    hosted_raw (by decide) (hitems.append htail (breaks_raw (by decide) _))
  simpa [Query.flatPieces] using hselect

theorem Query.anchoredHosted {anchor : Scalar} (hanchor : query.anchor = some anchor) :
    Hosted (query.anchoredPieces anchor) := by
  have hinner : Hosted (joinWith ", " (query.innerItems anchor)) := by
    apply hosted_joinWith (by decide) (by decide)
    intro template ht
    simp only [Query.innerItems, List.mem_append, List.mem_map, List.mem_singleton] at ht
    rcases ht with (⟨item, hi, rfl⟩ | rfl) | ⟨item, hi, rfl⟩
    · exact hosted_alias (Scalar.hosted (h.dimensions item.1 (List.fst_mem_of_mem_zipIdx hi))) _
    · exact hosted_alias (Scalar.hosted (h.anchor anchor hanchor)) _
    · have hmetric := h.metrics item.1 (List.fst_mem_of_mem_zipIdx hi)
      exact hosted_alias (Aggregate.innerHosted hmetric.1 hmetric.2) _
  have houter : Hosted (joinWith ", " query.outerItems) := by
    apply hosted_joinWith (by decide) (by decide)
    intro template ht
    simp only [Query.outerItems, List.mem_append, List.mem_map] at ht
    rcases ht with ⟨item, -, rfl⟩ | ⟨item, -, rfl⟩
    · exact hosted_name (by decide) (hosted_name (by decide) hosted_nil)
    · exact hosted_raw (undollared_aggregateOpen _) (hosted_name (by decide)
        (hosted_raw (by decide) (hosted_name (by decide) hosted_nil)))
  have hgroup := groupPieces_hosted query.dimensions.length
  have hby : '$' ∉ ("\n  GROUP BY " ++ positionalGroupBy (query.dimensions.length + 1) 1
      ++ "\n)\nSELECT ").toList := by
    simp only [String.toList_append, List.mem_append, not_or]
    exact ⟨⟨by decide, undollared_positionalGroupBy _ 1⟩, by decide⟩
  have hbyBreaks : startsBreak ("\n  GROUP BY "
      ++ positionalGroupBy (query.dimensions.length + 1) 1 ++ "\n)\nSELECT ") = true :=
    startsBreak_append (startsBreak_append (by decide) _) _
  have hfrom : Hosted (.name "\nFROM " "__postgresem_anchor_groups" :: .raw " AS a"
      :: groupPieces query.dimensions.length) :=
    hosted_name (by decide) (hosted_raw (by decide) hgroup.1)
  have hselect := hosted_raw hby (houter.append hfrom (breaks_name (by decide) _ _))
  have hbody := (Body.hosted (Or.inr rfl) h.filter).append hselect (breaks_raw hbyBreaks _)
  have hgroups := hinner.append (hosted_raw (by decide : '$' ∉ "\n  ".toList) hbody)
    (breaks_raw (by decide) _)
  have hwith := hosted_raw (by decide : '$' ∉ " AS (\n  SELECT ".toList) hgroups
  simpa [Query.anchoredPieces] using hosted_name (by decide : '$' ∉ "WITH ".toList) hwith

/-- Every placeholder of a statement stands for a hole and is cast to the type of its value. -/
theorem Query.hosted : Hosted query.pieces := by
  have hselect : Hosted query.selectPieces := by
    unfold Query.selectPieces
    split
    next anchor hanchor => exact Query.anchoredHosted h hanchor
    next => exact Query.flatHosted h
  have horder := orderPieces_hosted query.orderBy
  have hlimit : Hosted [.raw "\nLIMIT ", .hole (.integer, .integer query.limit),
      .raw "::text::bigint"] := by
    refine hosted_raw (by decide) (hosted_hole (by decide) (Or.inl ?_) hosted_nil)
    exact suffix_cast (by decide) breaks_nil
  exact (hselect.append horder.1 horder.2).append hlimit (breaks_raw (by decide) _)

end Query

end Postgresem.Sql

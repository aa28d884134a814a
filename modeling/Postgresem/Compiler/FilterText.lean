import Postgresem.Sql.Reading
import Postgresem.Compiler.Parameters
import Postgresem.Compiler.Refinement

/-! The text of a filter reads back, by the precedence of its operators, as the filter that the
query asks for. A connective with one argument is written as its argument in brackets, so that it
reads back as the argument. -/
namespace Postgresem
open Control Template Lexing Placeholders Tokens Relational

/-! ## The structure of a filter -/

mutual

/-- The connectives of a filter above its leaves. -/
def Filter.logic : Filter → Logic Filter
  | .and args => .and (Filter.logicEach args)
  | .or args => .or (Filter.logicEach args)
  | .not arg => .not arg.logic
  | leaf => .leaf leaf

def Filter.logicEach : List Filter → List (Logic Filter)
  | [] => []
  | filter :: rest => filter.logic :: Filter.logicEach rest

end

/-- The expression that a filter stands for, when its fields exist. -/
def Filter.expression (model : Model) (names : List String) (filter : Filter) :
    Option (Precedence.Expression Sql.Bound) := do
  let resolved ← filter.resolved model
  let predicate ← (lowerFilter model names resolved).toOption
  pure predicate.tree

/-- A text with its parameters, read by the precedence of its operators. -/
def readExpression (parameters : List CompiledParameter) (text : String) :
    Option (Precedence.Expression Sql.Bound) := do
  let lexemes ← lex text
  Precedence.parse (tokenize none ((read none lexemes).map (Item.map (valueAt parameters))))

section Kleene
variable {V : Type} [DecidableEq V] (server : Sql.Server V) (model : Model) (row : JoinedRow V)

mutual

/-- The meaning of a filter is its Kleene value under the meaning of its leaves. -/
theorem Filter.truth_eq_kleene : ∀ filter : Filter,
    filter.truth server model row = (filter.logic.map (Filter.truth server model row)).kleene
  | .and args => by
    rw [Filter.truth, Filter.logic, Logic.map, Logic.kleene, Filter.truthEach_eq_kleene args]
  | .or args => by
    rw [Filter.truth, Filter.logic, Logic.map, Logic.kleene, Filter.truthEach_eq_kleene args]
  | .not arg => by
    rw [Filter.truth, Filter.logic, Logic.map, Logic.kleene, Filter.truth_eq_kleene arg]
  | .comparison _ _ _ => rfl
  | .inList _ _ => rfl
  | .isNull _ => rfl
  | .isNotNull _ => rfl

theorem Filter.truthEach_eq_kleene : ∀ args : List Filter,
    Filter.truthEach server model row args =
      Logic.kleeneEach (Logic.mapEach (Filter.truth server model row) (Filter.logicEach args))
  | [] => rfl
  | filter :: rest => by
    rw [Filter.truthEach, Filter.logicEach, Logic.mapEach, Logic.kleeneEach,
      Filter.truth_eq_kleene filter, Filter.truthEach_eq_kleene rest]

end

end Kleene

/-! ## The tree of a lowered filter -/

section Structure
variable (model : Model) (names : List String)

variable {model names} in
theorem Filter.expression_eq {filter : Filter} {resolved : ResolvedFilter}
    {predicate : Sql.Predicate} (hr : filter.resolved model = some resolved)
    (h : lowerFilter model names resolved = .ok predicate) :
    filter.expression model names = some predicate.tree := by
  simp [Filter.expression, hr, h, Except.toOption]

variable {model names} in
theorem Filter.leaf_logic {filter : Filter} {resolved : ResolvedFilter}
    {predicate : Sql.Predicate} (hr : filter.resolved model = some resolved)
    (h : lowerFilter model names resolved = .ok predicate)
    (hfilter : filter.logic = .leaf filter) (htree : predicate.tree.logic = .leaf predicate.tree) :
    predicate.tree.logic.map some =
      (filter.logic.map (Filter.expression model names)).collapse := by
  rw [htree, hfilter, Logic.map, Logic.map, Logic.collapse, Filter.expression_eq hr h]

mutual

/-- The tree of a lowered filter has the connectives of the filter, less those of one argument,
and its leaves in their order. -/
theorem Filter.tree_logic : ∀ (filter : Filter) {resolved : ResolvedFilter}
    {predicate : Sql.Predicate}, filter.resolved model = some resolved →
    lowerFilter model names resolved = .ok predicate →
    predicate.tree.logic.map some = (filter.logic.map (Filter.expression model names)).collapse
  | .and args, resolved, predicate, hr, h => by
    rw [Filter.resolved, Option.map_eq_some_iff] at hr
    obtain ⟨resolvedArgs, hargs, rfl⟩ := hr
    rw [lowerFilter, map_eq_ok] at h
    obtain ⟨lowered, hlowered, rfl⟩ := h
    rw [Sql.Predicate.tree, (Precedence.Expression.logic_chain _).1, (Logic.map_chain _ _).1,
      Filter.treeEach_logic args hargs hlowered, Filter.logic, Logic.map, Logic.collapse]
  | .or args, resolved, predicate, hr, h => by
    rw [Filter.resolved, Option.map_eq_some_iff] at hr
    obtain ⟨resolvedArgs, hargs, rfl⟩ := hr
    rw [lowerFilter, map_eq_ok] at h
    obtain ⟨lowered, hlowered, rfl⟩ := h
    rw [Sql.Predicate.tree, (Precedence.Expression.logic_chain _).2, (Logic.map_chain _ _).2,
      Filter.treeEach_logic args hargs hlowered, Filter.logic, Logic.map, Logic.collapse]
  | .not arg, resolved, predicate, hr, h => by
    rw [Filter.resolved, Option.map_eq_some_iff] at hr
    obtain ⟨resolvedArg, harg, rfl⟩ := hr
    rw [lowerFilter, map_eq_ok] at h
    obtain ⟨lowered, hlowered, rfl⟩ := h
    rw [Sql.Predicate.tree, Precedence.Expression.logic, Logic.map,
      Filter.tree_logic arg harg hlowered, Filter.logic, Logic.map, Logic.collapse]
  | .comparison operator name value, resolved, predicate, hr, h => by
    refine Filter.leaf_logic hr h rfl ?_
    rw [Filter.resolved, Option.map_eq_some_iff] at hr
    obtain ⟨field, -, rfl⟩ := hr
    rw [lowerFilter, map_eq_ok] at h
    obtain ⟨operand, -, rfl⟩ := h
    rfl
  | .inList name values, resolved, predicate, hr, h => by
    refine Filter.leaf_logic hr h rfl ?_
    rw [Filter.resolved, Option.map_eq_some_iff] at hr
    obtain ⟨field, -, rfl⟩ := hr
    rw [lowerFilter, Except.ok.injEq] at h
    rw [← h]
    rfl
  | .isNull name, resolved, predicate, hr, h => by
    refine Filter.leaf_logic hr h rfl ?_
    rw [Filter.resolved, Option.map_eq_some_iff] at hr
    obtain ⟨field, -, rfl⟩ := hr
    rw [lowerFilter, Except.ok.injEq] at h
    rw [← h]
    rfl
  | .isNotNull name, resolved, predicate, hr, h => by
    refine Filter.leaf_logic hr h rfl ?_
    rw [Filter.resolved, Option.map_eq_some_iff] at hr
    obtain ⟨field, -, rfl⟩ := hr
    rw [lowerFilter, Except.ok.injEq] at h
    rw [← h]
    rfl

theorem Filter.treeEach_logic : ∀ (args : List Filter) {resolved : List ResolvedFilter}
    {predicates : List Sql.Predicate}, Filter.resolvedEach model args = some resolved →
    lowerFilters model names resolved = .ok predicates →
    Logic.mapEach some (Precedence.Expression.logicEach (Sql.Predicate.treeEach predicates)) =
      Logic.collapseEach (Logic.mapEach (Filter.expression model names) (Filter.logicEach args))
  | [], resolved, predicates, hr, h => by
    rw [Filter.resolvedEach, Option.some.injEq] at hr
    subst hr
    rw [lowerFilters, Except.ok.injEq] at h
    subst h
    rfl
  | filter :: rest, resolved, predicates, hr, h => by
    simp only [Filter.resolvedEach, Option.bind_eq_bind, Option.bind_eq_some_iff, Option.pure_def,
      Option.some.injEq] at hr
    obtain ⟨first, hfirst, others, hothers, rfl⟩ := hr
    simp only [lowerFilters, bind_eq_ok, pure_eq_ok] at h
    obtain ⟨lowered, hlowered, loweredRest, hloweredRest, rfl⟩ := h
    rw [Sql.Predicate.treeEach, Precedence.Expression.logicEach, Logic.mapEach,
      Filter.tree_logic filter hfirst hlowered, Filter.treeEach_logic rest hothers hloweredRest,
      Filter.logicEach, Logic.mapEach, Logic.collapseEach]

end

omit model names in
theorem validateFilter_args {filter : Filter} {args : List Filter} {depth nodeCount total : Nat}
    (hfilter : filter = .and args ∨ filter = .or args)
    (h : validateFilter filter depth nodeCount = .ok total) :
    args ≠ [] ∧ validateFilters args (depth + 1) (nodeCount + 1) = .ok total := by
  rcases hfilter with rfl | rfl <;>
  · rw [validateFilter] at h
    split at h
    · cases h
    · split at h
      · cases h
      · split at h
        · cases h
        next hempty => exact ⟨by simpa using hempty, h⟩

omit model names in
theorem validateFilter_values {name : String} {values : List Literal} {depth nodeCount total : Nat}
    (h : validateFilter (.inList name values) depth nodeCount = .ok total) : values ≠ [] := by
  rw [validateFilter] at h
  split at h
  · cases h
  · split at h
    · cases h
    · simp only [bind_eq_ok, ensure_eq_ok, exists_const, Bool.and_eq_true] at h
      obtain ⟨_, -, ⟨hsize, -⟩, -⟩ := h
      simpa using hsize

omit model names in
theorem validateFilter_arg {arg : Filter} {depth nodeCount total : Nat}
    (h : validateFilter (.not arg) depth nodeCount = .ok total) :
    validateFilter arg (depth + 1) (nodeCount + 1) = .ok total := by
  rw [validateFilter] at h
  split at h
  · cases h
  · split at h
    · cases h
    · exact h

variable {model names} in
theorem lowerFilters_ne_nil {args : List Filter} {resolved : List ResolvedFilter}
    {predicates : List Sql.Predicate} (hne : args ≠ [])
    (hr : Filter.resolvedEach model args = some resolved)
    (h : lowerFilters model names resolved = .ok predicates) : predicates ≠ [] := by
  obtain ⟨filter, rest, rfl⟩ := List.exists_cons_of_ne_nil hne
  simp only [Filter.resolvedEach, Option.bind_eq_bind, Option.bind_eq_some_iff, Option.pure_def,
    Option.some.injEq] at hr
  obtain ⟨first, -, others, -, rfl⟩ := hr
  simp only [lowerFilters, bind_eq_ok, pure_eq_ok] at h
  obtain ⟨lowered, -, loweredRest, -, rfl⟩ := h
  exact List.cons_ne_nil lowered loweredRest

mutual

/-- The checks of a query leave no connective and no list without arguments. -/
theorem validateFilter_filled : ∀ (filter : Filter) {depth nodeCount total : Nat}
    {resolved : ResolvedFilter} {predicate : Sql.Predicate},
    validateFilter filter depth nodeCount = .ok total → filter.resolved model = some resolved →
    lowerFilter model names resolved = .ok predicate → predicate.Filled
  | .and args, _, _, _, resolved, predicate, hvalid, hr, h => by
    rw [Filter.resolved, Option.map_eq_some_iff] at hr
    obtain ⟨resolvedArgs, hargs, rfl⟩ := hr
    rw [lowerFilter, map_eq_ok] at h
    obtain ⟨lowered, hlowered, rfl⟩ := h
    obtain ⟨hne, hvalids⟩ := validateFilter_args (Or.inl rfl) hvalid
    exact ⟨lowerFilters_ne_nil hne hargs hlowered,
      validateFilters_filled args hvalids hargs hlowered⟩
  | .or args, _, _, _, resolved, predicate, hvalid, hr, h => by
    rw [Filter.resolved, Option.map_eq_some_iff] at hr
    obtain ⟨resolvedArgs, hargs, rfl⟩ := hr
    rw [lowerFilter, map_eq_ok] at h
    obtain ⟨lowered, hlowered, rfl⟩ := h
    obtain ⟨hne, hvalids⟩ := validateFilter_args (Or.inr rfl) hvalid
    exact ⟨lowerFilters_ne_nil hne hargs hlowered,
      validateFilters_filled args hvalids hargs hlowered⟩
  | .not arg, _, _, _, resolved, predicate, hvalid, hr, h => by
    rw [Filter.resolved, Option.map_eq_some_iff] at hr
    obtain ⟨resolvedArg, harg, rfl⟩ := hr
    rw [lowerFilter, map_eq_ok] at h
    obtain ⟨lowered, hlowered, rfl⟩ := h
    rw [Sql.Predicate.Filled]
    exact validateFilter_filled arg (validateFilter_arg hvalid) harg hlowered
  | .comparison operator name value, _, _, _, resolved, predicate, _, hr, h => by
    rw [Filter.resolved, Option.map_eq_some_iff] at hr
    obtain ⟨field, -, rfl⟩ := hr
    rw [lowerFilter, map_eq_ok] at h
    obtain ⟨operand, -, rfl⟩ := h
    trivial
  | .inList name values, _, _, _, resolved, predicate, hvalid, hr, h => by
    rw [Filter.resolved, Option.map_eq_some_iff] at hr
    obtain ⟨field, -, rfl⟩ := hr
    rw [lowerFilter, Except.ok.injEq] at h
    rw [← h]
    have hne := validateFilter_values hvalid
    simpa [Sql.Predicate.Filled] using hne
  | .isNull name, _, _, _, resolved, predicate, _, hr, h => by
    rw [Filter.resolved, Option.map_eq_some_iff] at hr
    obtain ⟨field, -, rfl⟩ := hr
    rw [lowerFilter, Except.ok.injEq] at h
    rw [← h]
    trivial
  | .isNotNull name, _, _, _, resolved, predicate, _, hr, h => by
    rw [Filter.resolved, Option.map_eq_some_iff] at hr
    obtain ⟨field, -, rfl⟩ := hr
    rw [lowerFilter, Except.ok.injEq] at h
    rw [← h]
    trivial

theorem validateFilters_filled : ∀ (args : List Filter) {depth nodeCount total : Nat}
    {resolved : List ResolvedFilter} {predicates : List Sql.Predicate},
    validateFilters args depth nodeCount = .ok total →
    Filter.resolvedEach model args = some resolved →
    lowerFilters model names resolved = .ok predicates → Sql.Predicate.FilledEach predicates
  | [], _, _, _, resolved, predicates, _, hr, h => by
    rw [Filter.resolvedEach, Option.some.injEq] at hr
    subst hr
    rw [lowerFilters, Except.ok.injEq] at h
    subst h
    trivial
  | filter :: rest, depth, nodeCount, total, resolved, predicates, hvalid, hr, h => by
    simp only [Filter.resolvedEach, Option.bind_eq_bind, Option.bind_eq_some_iff, Option.pure_def,
      Option.some.injEq] at hr
    obtain ⟨first, hfirst, others, hothers, rfl⟩ := hr
    simp only [lowerFilters, bind_eq_ok, pure_eq_ok] at h
    obtain ⟨lowered, hlowered, loweredRest, hloweredRest, rfl⟩ := h
    rw [validateFilters] at hvalid
    cases hvalidated : validateFilter filter depth nodeCount with
    | error error =>
      rw [hvalidated] at hvalid
      cases hvalid
    | ok count =>
      rw [hvalidated] at hvalid
      exact ⟨validateFilter_filled filter hvalidated hfirst hlowered,
        validateFilters_filled rest hvalid hothers hloweredRest⟩

end

end Structure

/-! ## Reading a written predicate -/

theorem mem_assemble_of_holes {template : List (Piece Sql.Param)} {value : Sql.Param}
    (h : value ∈ holes template) (pool : List Sql.Param) : value ∈ (assemble template pool).2 := by
  induction template generalizing pool with
  | nil => cases h
  | cons piece rest ih =>
    cases piece with
    | raw text => exact ih h pool
    | name lead identifier => exact ih h pool
    | constant lead text => exact ih h pool
    | hole first =>
      rw [holes_hole, List.mem_cons] at h
      rcases h with rfl | h
      · have hallocated : value ∈ (allocate pool value).2 := by
          unfold allocate
          split
          next hmem => exact hmem
          · exact List.mem_append_right pool (List.mem_singleton_self value)
        exact (prefix_assemble_pool rest _).mem hallocated
      · exact ih h _

theorem valueAt_prefix {parameters later : List CompiledParameter} (h : parameters <+: later)
    {position : Nat} {value : Sql.Param} (hvalue : valueAt parameters position = some value) :
    valueAt later position = some value := by
  obtain ⟨rest, rfl⟩ := h
  rw [valueAt, Option.map_eq_some_iff] at hvalue
  obtain ⟨parameter, hfind, hparam⟩ := hvalue
  rw [valueAt, List.find?_append, hfind, Option.some_or, Option.map_some, hparam]

/-- The text of a predicate reads back as its tree, with any parameters that go on from those of
the text. -/
theorem readExpression_predicate {predicate : Sql.Predicate} (hdated : predicate.Dated)
    (hfilled : predicate.Filled) (pool : List Sql.Param) {parameters : List CompiledParameter}
    (hparameters : numberParameters (assemble predicate.pieces pool).2 <+: parameters) :
    readExpression parameters (assemble predicate.pieces pool).1 = some predicate.tree := by
  have hhosted := Sql.Predicate.hosted hdated
  have hdelimited : Delimited (items predicate.pieces) :=
    delimited_of_colons fun site hs => CastsAs.head? (hhosted.casts site hs)
  have hbound : (items predicate.pieces).map (Item.map fun value => valueAt parameters
      (positionIn (assemble predicate.pieces pool).2 value)) = Sql.boundItems predicate.pieces := by
    apply items_map_congr
    intro site hs
    have hhole : site.1 ∈ holes predicate.pieces := by
      rw [← sites_items Sql.isCastCharacter]
      exact List.mem_map_of_mem hs
    exact valueAt_prefix hparameters
      (valueAt_numberParameters (mem_assemble_of_holes hhole pool)).1
  have hitems : ((items predicate.pieces).map (Item.map (positionIn
      (assemble predicate.pieces pool).2))).map (Item.map (valueAt parameters)) =
        Sql.boundItems predicate.pieces := by
    rw [← hbound, List.map_map]
    apply List.map_congr_left
    intro item _
    cases item <;> rfl
  have htokens := predicate.tokenizes [] breaking_nil
  rw [List.append_nil] at htokens
  rw [readExpression, lex_assemble predicate.clean, Option.bind_eq_bind, Option.bind_some,
    read_lexemes hhosted.undollared hdelimited, hitems, htokens]
  simpa [tokenize, flush] using Sql.Predicate.parse_tokens hfilled

theorem NormalizedLsq.filter_valid (normalized : NormalizedLsq) {filter : Filter}
    (h : normalized.query.filters = some filter) :
    ∃ total, validateFilter filter 1 0 = .ok total := by
  have hvalid := normalized.valid
  simp only [validateQuery, bind_eq_ok, ensure_eq_ok, exists_const, h, map_eq_ok] at hvalid
  obtain ⟨-, -, -, -, _, -, _, -, total, htotal, -⟩ := hvalid
  exact ⟨total, htotal⟩

section Rendered
variable {backend : HashBackend} {normalized : NormalizedLsq} {snapshot : SemanticSnapshot}
  {options : CompilerOptions} {validated : ValidatedQuery} {filter : Filter}
  {resolved : ResolvedFilter} {pool : List Sql.Param} {columns : List String} {text : String}
  {state : RenderState}

/-- The text that the renderer writes for a filter reads back as the lowered filter. -/
theorem renderFilter_reads
    (h : validate backend normalized snapshot options = .ok validated)
    (hfilter : normalized.query.filters = some filter) (hresolved : validated.filter = some resolved)
    (hrender : renderFilter validated.model (relationshipAliases validated.relationships) resolved
      (stateOf pool columns) = .ok (text, state))
    {parameters : List CompiledParameter} (hparameters : state.parameters <+: parameters) :
    ∃ predicate, filter.resolved validated.model = some resolved ∧
      lowerFilter validated.model validated.names resolved = .ok predicate ∧
      readExpression parameters text = some predicate.tree := by
  obtain ⟨model, -, hquery⟩ := validate_ok h
  have hfound : filter.resolved validated.model = some resolved := by
    have hbind := hquery.filter.1
    rw [hfilter, Option.bind_some, hresolved] at hbind
    rw [hquery.model_eq]
    exact hbind
  have hcover : ∀ field ∈ resolved.fields, Covers (validated.relationships.map Prod.fst) field := by
    intro field hf
    exact hquery.covered.fields field (by simp [ValidatedQuery.fields, filterFields, hresolved, hf])
  rw [renderFilter_writes hquery.covered.found resolved hcover pool columns, map_map',
    map_eq_ok] at hrender
  obtain ⟨predicate, hlowered, hwritten⟩ := hrender
  obtain ⟨rfl, rfl⟩ := Prod.mk.inj hwritten
  obtain ⟨total, htotal⟩ := normalized.filter_valid hfilter
  have hdated := (lowerFilter_holes validated.model validated.names filter hfound hlowered).1
  have hfilled := validateFilter_filled _ _ filter htotal hfound hlowered
  exact ⟨predicate, hfound, hlowered, readExpression_predicate hdated hfilled pool hparameters⟩

/-- The text of a filter parses as the filter without its connectives of one argument, with the
leaves, their order and their parameters; its Kleene value is that of the filter. -/
theorem filter_text_keeps_structure
    (h : validate backend normalized snapshot options = .ok validated)
    (hfilter : normalized.query.filters = some filter) (hresolved : validated.filter = some resolved)
    (hrender : renderFilter validated.model (relationshipAliases validated.relationships) resolved
      (stateOf pool columns) = .ok (text, state))
    {parameters : List CompiledParameter} (hparameters : state.parameters <+: parameters) :
    ∃ tree, readExpression parameters text = some tree ∧
      tree.logic.map some =
        (filter.logic.map (Filter.expression validated.model validated.names)).collapse ∧
      (∀ values : Nat → Truth,
        (tree.logic.assign values 0).kleene = (filter.logic.assign values 0).kleene) ∧
      ∀ (V : Type) [DecidableEq V] (server : Sql.Server V) (row : JoinedRow V),
        filter.truth server validated.model row =
          (filter.logic.map (Filter.truth server validated.model row)).kleene := by
  obtain ⟨predicate, hfound, hlowered, hread⟩ :=
    renderFilter_reads h hfilter hresolved hrender hparameters
  have hlogic := Filter.tree_logic validated.model validated.names filter hfound hlowered
  exact ⟨predicate.tree, hread, hlogic, Logic.kleene_assign_of_collapse hlogic,
    fun V _ server row => filter.truth_eq_kleene server validated.model row⟩

end Rendered

/-! A query with connectives of one and of several arguments, and the two filters of one argument
that are written alike. -/

def filterOf (filter : Filter) : LogicalSemanticQuery :=
  { model := "orders", metrics := [{ metric := "orders" }], filters := some filter }

/-- The text of the filter of a query that starts with no parameters. -/
def filterText (normalized : NormalizedLsq) (snapshot : SemanticSnapshot) :
    Except CompileError (ValidatedQuery × ResolvedFilter × String × RenderState) := do
  let validated ← validateAgainst normalized snapshot {}
  let resolved ← orError validated.filter .unknownModel
  let written ← renderFilter validated.model (relationshipAliases validated.relationships) resolved
    (stateOf [] [])
  pure (validated, resolved, written)

def mixedFilter : Filter :=
  .not (.or [.and [.inList "sku" [.text "a", .text "b"]],
    .and [.isNotNull "sku", .not (.comparison .gt "id" (.integer 3))]])

def mixedQuery : NormalizedLsq :=
  (filterOf mixedFilter).normalize standardHash (by decide)

def mixedText : String :=
  "NOT (((t1.\"sku\" IN ($1::text, $2::text)) OR (t1.\"sku\" IS NOT NULL" ++
    " AND NOT (t0.\"id\" > $3::text::bigint))))"

theorem filter_text_keeps_structure_mixed :
    ∃ validated resolved text state,
      validate standardHash mixedQuery lineBreakSnapshot {} = .ok validated ∧
      renderFilter validated.model (relationshipAliases validated.relationships) resolved
        (stateOf [] []) = .ok (text, state) ∧
      text = mixedText ∧
      ∃ tree, readExpression state.parameters text = some tree ∧
        tree.logic.map some =
          (mixedFilter.logic.map (Filter.expression validated.model validated.names)).collapse ∧
        (∀ values : Nat → Truth,
          (tree.logic.assign values 0).kleene = (mixedFilter.logic.assign values 0).kleene) ∧
        ∀ (V : Type) [DecidableEq V] (server : Sql.Server V) (row : JoinedRow V),
          mixedFilter.truth server validated.model row =
            (mixedFilter.logic.map (Filter.truth server validated.model row)).kleene := by
  have htext : succeedsWith (filterText mixedQuery lineBreakSnapshot) (fun written =>
      written.2.2.1 == mixedText) = true := by decide +kernel
  obtain ⟨⟨validated, resolved, text, state⟩, hwritten, htext⟩ := exists_ok_of_succeedsWith htext
  simp only [filterText, bind_eq_ok, orError_eq_ok, pure_eq_ok, Prod.mk.injEq] at hwritten
  obtain ⟨_, hvalid, _, hresolved, _, hrender, rfl, rfl, rfl⟩ := hwritten
  rw [← validate_of_checkSnapshot lineBreakSnapshot_checked] at hvalid
  exact ⟨_, _, text, state, hvalid, hrender, by simpa using htext,
    filter_text_keeps_structure hvalid rfl hresolved hrender List.prefix_rfl⟩

def skuMissing (connective : List Filter → Filter) : Filter := connective [.isNull "sku"]

def conjunctionQuery : NormalizedLsq :=
  (filterOf (skuMissing .and)).normalize standardHash (by decide)

def disjunctionQuery : NormalizedLsq :=
  (filterOf (skuMissing .or)).normalize standardHash (by decide)

/-- A conjunction and a disjunction of one argument have one text, and it reads back as neither. -/
theorem one_argument_connectives_lost :
    ∃ validated resolved other resolved' text state tree,
      validate standardHash conjunctionQuery lineBreakSnapshot {} = .ok validated ∧
      validate standardHash disjunctionQuery lineBreakSnapshot {} = .ok other ∧
      validated.filter = some resolved ∧ other.filter = some resolved' ∧
      renderFilter validated.model (relationshipAliases validated.relationships) resolved
        (stateOf [] []) = .ok (text, state) ∧
      renderFilter other.model (relationshipAliases other.relationships) resolved'
        (stateOf [] []) = .ok (text, state) ∧
      readExpression state.parameters text = some tree ∧
      tree.logic.map some ≠
        (skuMissing .and).logic.map (Filter.expression validated.model validated.names) ∧
      tree.logic.map some ≠
        (skuMissing .or).logic.map (Filter.expression other.model other.names) := by
  let written : String × RenderState :=
    ("(t1.\"sku\" IS NULL)", { sourceColumns := ["commerce.items.sku"] })
  have hfirst : succeedsWith (filterText conjunctionQuery lineBreakSnapshot)
      (fun output => decide (output.2.2 = written)) = true := by decide +kernel
  have hsecond : succeedsWith (filterText disjunctionQuery lineBreakSnapshot)
      (fun output => decide (output.2.2 = written)) = true := by decide +kernel
  obtain ⟨⟨validated, resolved, _⟩, hfirst, htext⟩ := exists_ok_of_succeedsWith hfirst
  obtain ⟨⟨other, resolved', _⟩, hsecond, htext'⟩ := exists_ok_of_succeedsWith hsecond
  obtain rfl := of_decide_eq_true htext
  obtain rfl := of_decide_eq_true htext'
  simp only [filterText, bind_eq_ok, orError_eq_ok, pure_eq_ok, Prod.mk.injEq] at hfirst hsecond
  obtain ⟨_, hvalid, _, hresolved, _, hrender, rfl, rfl, rfl⟩ := hfirst
  obtain ⟨_, hvalid', _, hresolved', _, hrender', rfl, rfl, rfl⟩ := hsecond
  rw [← validate_of_checkSnapshot lineBreakSnapshot_checked] at hvalid hvalid'
  obtain ⟨predicate, hfound, hlowered, hread⟩ :=
    renderFilter_reads hvalid rfl hresolved hrender List.prefix_rfl
  have hlogic := Filter.tree_logic _ _ _ hfound hlowered
  refine ⟨_, _, _, _, _, _, predicate.tree, hvalid, hvalid', hresolved, hresolved', hrender,
    hrender', hread, ?_, ?_⟩
  · rw [hlogic]
    exact fun h => nomatch h
  · rw [hlogic]
    exact fun h => nomatch h

end Postgresem

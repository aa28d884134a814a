import Postgresem.Foundation.Precedence
import Postgresem.Sql.Writing

/-! A written predicate read back by the precedence of its operators. A position stands for the
parameter that it is bound to, and a position that is not bound for `none`. -/
namespace Postgresem.Sql
open Template Placeholders Tokens Precedence Relational

abbrev Bound := Option Param

/-- The items of a template whose holes are bound to their values. -/
def boundItems (template : List (Piece Param)) : List (Item Bound) :=
  (items template).map (Item.map some)

/-! ## The tokens and the tree of a predicate -/

def castTypes (dataType : DataType) : List String :=
  if dataType = .text then ["text"] else ["text", postgresType dataType]

def Scalar.tokens : Scalar → List (Token Bound)
  | .column reference => [.word (slotName reference.slot), .dot, .name reference.column]
  | .parameter dataType value =>
    .placeholder (some (dataType, value)) :: castTokens (castTypes dataType)
  | .dateMidnight value =>
    .placeholder (some (literalType value, value)) :: castTokens ["text", "date", "timestamp"]
  | .timezone zone argument =>
    .word "timezone" :: .opening :: .placeholder (some (.text, .text zone)) :: castTokens ["text"]
      ++ .comma :: argument.tokens ++ [.closing]
  | .dateTrunc grain argument =>
    .word "date_trunc" :: .opening :: .constant (timeGrain grain) :: .comma :: argument.tokens
      ++ .closing :: castTokens ["date"]

def Scalar.tree : Scalar → Expression Bound
  | .column reference => .column (slotName reference.slot) reference.column
  | .parameter dataType value =>
    (castTypes dataType).foldl .cast (.placeholder (some (dataType, value)))
  | .dateMidnight value =>
    ["text", "date", "timestamp"].foldl .cast (.placeholder (some (literalType value, value)))
  | .timezone zone argument =>
    .call "timezone" [.cast (.placeholder (some (.text, .text zone))) "text", argument.tree]
  | .dateTrunc grain argument =>
    .cast (.call "date_trunc" [.constant (timeGrain grain), argument.tree]) "date"

mutual

def Predicate.tokens : Predicate → List (Token Bound)
  | .compare operator left right =>
    left.tokens ++ .comparison (comparisonOperator operator) :: right.tokens
  | .inList argument values =>
    argument.tokens ++ .inWord :: .opening :: joined .comma (values.map Scalar.tokens)
      ++ [.closing]
  | .isNull argument => argument.tokens ++ [.isWord, .nullWord]
  | .isNotNull argument => argument.tokens ++ [.isWord, .negation, .nullWord]
  | .and args => .opening :: joined .conjunction (Predicate.tokensEach args) ++ [.closing]
  | .or args => .opening :: joined .disjunction (Predicate.tokensEach args) ++ [.closing]
  | .not argument => .negation :: .opening :: argument.tokens ++ [.closing]

def Predicate.tokensEach : List Predicate → List (List (Token Bound))
  | [] => []
  | predicate :: rest => predicate.tokens :: Predicate.tokensEach rest

end

mutual

/-- A connective with one argument leaves no trace but its brackets. -/
def Predicate.tree : Predicate → Expression Bound
  | .compare operator left right =>
    .compare (comparisonOperator operator) left.tree right.tree
  | .inList argument values => .inList argument.tree (values.map Scalar.tree)
  | .isNull argument => .isNull argument.tree
  | .isNotNull argument => .isNotNull argument.tree
  | .and args => chain .and (Predicate.treeEach args)
  | .or args => chain .or (Predicate.treeEach args)
  | .not argument => .not argument.tree

def Predicate.treeEach : List Predicate → List (Expression Bound)
  | [] => []
  | predicate :: rest => predicate.tree :: Predicate.treeEach rest

end

mutual

/-- No connective and no list is without arguments. -/
def Predicate.Filled : Predicate → Prop
  | .compare _ _ _ | .isNull _ | .isNotNull _ => True
  | .inList _ values => values ≠ []
  | .and args | .or args => args ≠ [] ∧ Predicate.FilledEach args
  | .not argument => argument.Filled

def Predicate.FilledEach : List Predicate → Prop
  | [] => True
  | predicate :: rest => predicate.Filled ∧ Predicate.FilledEach rest

end

/-! ## The tokens of a written predicate -/

/-- The template has the tokens, as long as what follows does not go on with the last of them. -/
def Tokenizes (template : List (Piece Param)) (tokens : List (Token Bound)) : Prop :=
  ∀ rest, Breaking rest →
    tokenize none (boundItems template ++ rest) = tokens ++ tokenize none rest

section Tokenizes
variable {xs ys : List (Piece Param)} {ts us : List (Token Bound)}

theorem boundItems_append : boundItems (xs ++ ys) = boundItems xs ++ boundItems ys := by
  rw [boundItems, items_append, List.map_append]
  rfl

theorem boundItems_raw (text : String) : boundItems (.raw text :: xs) = fixedItems text ++ boundItems xs := by
  rw [boundItems, items_raw, List.map_append, fixedItems_map]
  rfl

theorem boundItems_hole (value : Param) :
    boundItems (.hole value :: xs) = .value (some value) :: boundItems xs := rfl

theorem tokenizes_nil : Tokenizes [] [] := fun _ _ => rfl

theorem Tokenizes.append (hx : Tokenizes xs ts) (hy : Tokenizes ys us)
    (hstart : ∀ rest, Breaking (boundItems ys ++ rest)) : Tokenizes (xs ++ ys) (ts ++ us) := by
  intro rest hrest
  rw [boundItems_append, List.append_assoc, hx _ (hstart rest), hy rest hrest, List.append_assoc]

theorem tokenizes_raw (text : String) (h : Tokenizes xs ts)
    (hclosed : text.toList.getLast?.any breaksTokens = true) : Tokenizes (.raw text :: xs) (textTokens text ++ ts) := by
  intro rest hrest
  rw [boundItems_raw, List.append_assoc, tokenize_closed hclosed, h rest hrest, List.append_assoc]

theorem tokenizes_last (text : String) : Tokenizes [.raw text] (textTokens text) := by
  intro rest hrest
  rw [boundItems_raw, List.append_assoc]
  exact tokenize_append hrest (fixedItems text) none

theorem tokenizes_hole (h : Tokenizes xs ts) (value : Param) :
    Tokenizes (.hole value :: xs) (.placeholder (some value) :: ts) := by
  intro rest hrest
  rw [boundItems_hole, List.cons_append, tokenize, h rest hrest]
  rfl

theorem breaking_raw {text : String} (h : startsToken text = true) (rest : List (Item Bound)) :
    Breaking (boundItems (.raw text :: xs) ++ rest) := by
  rw [boundItems_raw, List.append_assoc]
  exact breaking_fixed h _

theorem tokenizes_name (lead : String) (hclosed : lead.toList.getLast?.any breaksTokens = true)
    (h : Tokenizes xs ts) (identifier : String) :
    Tokenizes (.name lead identifier :: xs) (textTokens lead ++ .name identifier :: ts) := by
  intro rest hrest
  have hitems : boundItems (.name lead identifier :: xs) =
      fixedItems lead ++ .lexeme (.identifier identifier) :: boundItems xs := by
    rw [boundItems, items_name, List.map_append, fixedItems_map]
    rfl
  rw [hitems, List.append_assoc, tokenize_closed hclosed, List.cons_append, tokenize, h rest hrest,
    List.append_assoc]
  rfl

theorem tokenizes_constant (lead : String) (hclosed : lead.toList.getLast?.any breaksTokens = true)
    (h : Tokenizes xs ts) (value : String) :
    Tokenizes (.constant lead value :: xs) (textTokens lead ++ .constant value :: ts) := by
  intro rest hrest
  have hitems : boundItems (.constant lead value :: xs) =
      fixedItems lead ++ .lexeme (.constant value) :: boundItems xs := by
    rw [boundItems, items_constant, List.map_append, fixedItems_map]
    rfl
  rw [hitems, List.append_assoc, tokenize_closed hclosed, List.cons_append, tokenize, h rest hrest,
    List.append_assoc]
  rfl

/-- Templates with a separator between them have the tokens with its token between them. -/
theorem tokenizes_joined (separator : String) (token : Token Bound)
    (hseparator : textTokens separator = [token]) (hstart : startsToken separator = true)
    (hclosed : separator.toList.getLast?.any breaksTokens = true)
    (entries : List (List (Piece Param) × List (Token Bound)))
    (h : ∀ entry ∈ entries, Tokenizes entry.1 entry.2) :
    Tokenizes (joinWith separator (entries.map Prod.fst))
      (joined token (entries.map Prod.snd)) := by
  induction entries with
  | nil => exact tokenizes_nil
  | cons entry entries ih =>
    have hentry := h entry List.mem_cons_self
    have hentries := ih fun other ho => h other (List.mem_cons_of_mem entry ho)
    cases entries with
    | nil => exact hentry
    | cons next entries =>
      have hrest := tokenizes_raw separator hentries hclosed
      rw [hseparator] at hrest
      exact hentry.append hrest (breaking_raw hstart)

end Tokenizes

theorem ofWord_slotName (slot : Nat) : (ofWord (slotName slot) : Token Bound) =
    .word (slotName slot) := by
  have hhead : (slotName slot).toList.head? = some 't' := by
    rw [slotName, String.toList_append]
    rfl
  have hne : ∀ keyword : String, keyword.toList.head? ≠ some 't' → slotName slot ≠ keyword := by
    rintro keyword hkeyword rfl
    exact hkeyword hhead
  unfold ofWord
  rw [if_neg (hne _ (by decide)), if_neg (hne _ (by decide)), if_neg (hne _ (by decide)),
    if_neg (hne _ (by decide)), if_neg (hne _ (by decide)), if_neg (hne _ (by decide))]

theorem classOf_digits (n : Nat) : ∀ c ∈ (toString n).toList, classOf c = .word := by
  intro c hc
  have hdigit := Text.toString_isDigit n c hc
  simp [classOf, Char.isAlphanum, hdigit]

theorem textTokens_slotName (slot : Nat) :
    (textTokens (slotName slot ++ ".") : List (Token Bound)) = [.word (slotName slot), .dot] := by
  have hlist : (slotName slot ++ ".").toList = 't' :: ((toString slot).toList ++ ['.']) := by
    rw [slotName, String.toList_append, String.toList_append]
    rfl
  have hword : String.ofList ('t' :: (toString slot).toList) = slotName slot := by
    apply String.toList_injective
    rw [String.toList_ofList, slotName, String.toList_append]
    rfl
  rw [textTokens, fixedItems_eq, hlist, List.map_cons, List.map_append, tokenize]
  show [] ++ tokenize (some (.word, ['t'])) _ = _
  rw [tokenize_word (classOf_digits slot), List.map_singleton, tokenize, tokenize]
  show [ofWord (String.ofList ('t' :: (toString slot).toList)), .dot] = _
  rw [hword, ofWord_slotName]

theorem textTokens_castText (dataType : DataType) :
    textTokens (castText dataType) = castTokens (π := Bound) (castTypes dataType) := by
  cases dataType <;> rfl

theorem Scalar.tokenizes (scalar : Scalar) : Tokenizes scalar.pieces scalar.tokens := by
  induction scalar with
  | column reference =>
    have hname := tokenizes_name (slotName reference.slot ++ ".") (by simp; decide)
      tokenizes_nil reference.column
    rw [textTokens_slotName] at hname
    exact hname
  | parameter dataType value =>
    have hcast := tokenizes_last (castText dataType)
    rw [textTokens_castText] at hcast
    exact tokenizes_hole hcast (dataType, value)
  | dateMidnight value =>
    exact tokenizes_hole (tokenizes_last "::text::date::timestamp") (literalType value, value)
  | timezone zone argument ih =>
    have hclose := ih.append (tokenizes_last ")") (breaking_raw (by decide))
    have hcast := tokenizes_hole (tokenizes_raw "::text, " hclose (by decide))
      (.text, .text zone)
    exact tokenizes_raw "timezone(" hcast (by decide)
  | dateTrunc grain argument ih =>
    have hclose := ih.append (tokenizes_last ")::date") (breaking_raw (by decide))
    have hcomma := tokenizes_raw ", " hclose (by decide)
    exact tokenizes_constant "date_trunc(" (by decide) hcomma (timeGrain grain)

theorem tokenizes_operator (operator : ComparisonOperator) :
    textTokens (" " ++ comparisonOperator operator ++ " ") =
      [(.comparison (comparisonOperator operator) : Token Bound)] := by
  cases operator <;> rfl

theorem Tokenizes.bracket {xs : List (Piece Param)} {ts : List (Token Bound)}
    (h : Tokenizes xs ts) (text : String) (before : List (Token Bound))
    (hopen : textTokens text = before ++ [.opening])
    (hclosed : text.toList.getLast?.any breaksTokens = true) :
    Tokenizes (.raw text :: xs ++ [.raw ")"]) (before ++ .opening :: ts ++ [.closing]) := by
  have hclose : startsToken ")" = true := by decide
  have hbracket := tokenizes_raw text (h.append (tokenizes_last ")") (breaking_raw hclose)) hclosed
  have hlast : textTokens ")" = [(.closing : Token Bound)] := rfl
  rw [hopen, hlast] at hbracket
  simpa using hbracket

mutual

theorem Predicate.tokenizes : ∀ predicate : Predicate,
    Tokenizes predicate.pieces predicate.tokens
  | .compare operator left right => by
    have hclosed : (" " ++ comparisonOperator operator ++ " ").toList.getLast?.any breaksTokens =
        true := by cases operator <;> decide
    have hstart : startsToken (" " ++ comparisonOperator operator ++ " ") = true := by
      cases operator <;> decide
    have hright := tokenizes_raw _ right.tokenizes hclosed
    rw [tokenizes_operator] at hright
    exact left.tokenizes.append hright (breaking_raw hstart)
  | .inList argument values => by
    have hvalues := tokenizes_joined ", " .comma rfl (by decide) (by decide)
      (values.map fun value => (value.pieces, value.tokens))
      (by simpa using fun value _ => value.tokenizes)
    rw [List.map_map, List.map_map] at hvalues
    have hlist := hvalues.bracket " IN (" [.inWord] rfl (by decide)
    have hall := argument.tokenizes.append hlist (breaking_raw (by decide))
    simpa [Predicate.pieces, Predicate.tokens, Function.comp_def] using hall
  | .isNull argument => argument.tokenizes.append (tokenizes_last " IS NULL") (breaking_raw (by decide))
  | .isNotNull argument => argument.tokenizes.append (tokenizes_last " IS NOT NULL") (breaking_raw (by decide))
  | .and args =>
    (Predicate.tokenizesEach " AND " .conjunction rfl (by decide) (by decide) args).bracket
      "(" [] rfl (by decide)
  | .or args =>
    (Predicate.tokenizesEach " OR " .disjunction rfl (by decide) (by decide) args).bracket
      "(" [] rfl (by decide)
  | .not argument => argument.tokenizes.bracket "NOT (" [.negation] rfl (by decide)

theorem Predicate.tokenizesEach (separator : String) (token : Token Bound)
    (hseparator : textTokens separator = [token]) (hstart : startsToken separator = true)
    (hclosed : separator.toList.getLast?.any breaksTokens = true) : ∀ args : List Predicate,
    Tokenizes (joinWith separator (Predicate.piecesEach args))
      (joined token (Predicate.tokensEach args))
  | [] => tokenizes_nil
  | [predicate] => predicate.tokenizes
  | predicate :: next :: rest => by
    have hrest := tokenizes_raw separator (Predicate.tokenizesEach separator token hseparator hstart hclosed
      (next :: rest)) hclosed
    rw [hseparator] at hrest
    exact predicate.tokenizes.append hrest (breaking_raw hstart)

end

/-! ## What the tokens read as -/

theorem Scalar.tokens_head (scalar : Scalar) :
    ∃ first rest, scalar.tokens = first :: rest ∧ first ≠ .negation := by
  cases scalar with
  | column reference => exact ⟨_, _, rfl, by simp⟩
  | parameter dataType value => exact ⟨_, _, rfl, by simp⟩
  | dateMidnight value => exact ⟨_, _, rfl, by simp⟩
  | timezone zone argument => exact ⟨_, _, rfl, by simp⟩
  | dateTrunc grain argument => exact ⟨_, _, rfl, by simp⟩

/-- The first argument of a change of timezone. -/
def zoneTokens (zone : String) : List (Token Bound) :=
  .placeholder (some (.text, .text zone)) :: castTokens ["text"]

def zoneTree (zone : String) : Expression Bound :=
  .cast (.placeholder (some (.text, .text zone))) "text"

/-- What reads as an operand reads as a whole expression with more fuel. -/
theorem reads_whole {fuel : Nat} {tokens : List (Token Bound)} {value : Expression Bound}
    (h : Reads (parseCast (parseExpression fuel) fuel) 7 tokens value)
    (hstart : ∃ first rest, tokens = first :: rest ∧ first ≠ .negation) (hfuel : 0 < fuel) :
    Reads (parseExpression (fuel + 1)) 2 tokens value := by
  obtain ⟨first, rest, rfl, hfirst⟩ := hstart
  have hnot := h.parseIn.parseComparison.parseIs.parseNot (by simpa using hfirst)
    (List.cons_ne_nil first rest)
  exact (hnot.parseAnd hfuel).parseOr hfuel

theorem Scalar.reads (scalar : Scalar) {fuel : Nat} (hfuel : scalar.tokens.length ≤ fuel) :
    Reads (parseCast (parseExpression fuel) fuel) 7 scalar.tokens scalar.tree := by
  induction scalar generalizing fuel with
  | column reference =>
    exact reads_cast [.word _, .dot, .name _] (fun _ => rfl) []
  | parameter dataType value =>
    exact reads_cast [.placeholder _] (fun _ => rfl) (castTypes dataType)
  | dateMidnight value =>
    exact reads_cast [.placeholder _] (fun _ => rfl) ["text", "date", "timestamp"]
  | timezone zone argument ih =>
    simp only [Scalar.tokens, List.cons_append, List.length_cons, List.length_append] at hfuel
    obtain ⟨less, rfl⟩ : ∃ less, fuel = less + 1 := Nat.exists_eq_succ_of_ne_zero (by omega)
    have hless : argument.tokens.length ≤ less := by omega
    have hzone : Reads (parseExpression (less + 1)) 2 (zoneTokens zone) (zoneTree zone) :=
      reads_whole (reads_cast [.placeholder _] (fun _ => rfl) ["text"]) ⟨_, _, rfl, by simp⟩
        (by omega)
    have hargument := reads_whole (ih hless) argument.tokens_head (by omega)
    have hentries : ∀ entry ∈ [(zoneTokens zone, zoneTree zone), (argument.tokens, argument.tree)],
        Reads (parseExpression (less + 1)) 2 entry.1 entry.2 := by
      simpa using ⟨hzone, hargument⟩
    exact reads_call "timezone" [] (List.cons_ne_nil _ _) (show 2 ≤ less + 1 by omega) hentries
  | dateTrunc grain argument ih =>
    simp only [Scalar.tokens, List.cons_append, List.length_cons, List.length_append] at hfuel
    obtain ⟨less, rfl⟩ : ∃ less, fuel = less + 1 := Nat.exists_eq_succ_of_ne_zero (by omega)
    have hless : argument.tokens.length ≤ less := by omega
    have hgrain : Reads (parseExpression (less + 1)) 2 [.constant (timeGrain grain)]
        (.constant (timeGrain grain)) :=
      reads_whole (reads_cast [.constant _] (fun _ => rfl) []) ⟨_, _, rfl, by simp⟩ (by omega)
    have hargument := reads_whole (ih hless) argument.tokens_head (by omega)
    have hentries : ∀ entry ∈ [([.constant (timeGrain grain)], .constant (timeGrain grain)),
        (argument.tokens, argument.tree)],
        Reads (parseExpression (less + 1)) 2 entry.1 entry.2 := by
      simpa using ⟨hgrain, hargument⟩
    exact reads_call "date_trunc" ["date"] (List.cons_ne_nil _ _) (show 2 ≤ less + 1 by omega)
      hentries

theorem Scalar.reads_whole (scalar : Scalar) {fuel : Nat} (hfuel : scalar.tokens.length ≤ fuel) :
    Reads (parseExpression (fuel + 1)) 2 scalar.tokens scalar.tree := by
  obtain ⟨first, rest, hstart, hfirst⟩ := scalar.tokens_head
  refine Sql.reads_whole (scalar.reads hfuel) ⟨first, rest, hstart, hfirst⟩ ?_
  rw [hstart, List.length_cons] at hfuel
  omega

/-- A test of an operand reads as one argument of a connective. -/
theorem Scalar.starts (scalar : Scalar) {others : List (Token Bound)} {fuel : Nat}
    {value : Expression Bound}
    (h : Reads (parseIs (parseExpression fuel) fuel) 4 (scalar.tokens ++ others) value) :
    Reads (parseNot (parseExpression fuel) fuel) 4 (scalar.tokens ++ others) value := by
  obtain ⟨first, rest, hstart, hfirst⟩ := scalar.tokens_head
  rw [hstart] at h ⊢
  exact h.parseNot (by simpa using hfirst) (by simp)

def Predicate.entries (args : List Predicate) : List (List (Token Bound) × Expression Bound) :=
  args.map fun predicate => (predicate.tokens, predicate.tree)

theorem Predicate.entries_spec (args : List Predicate) :
    Predicate.tokensEach args = (Predicate.entries args).map Prod.fst ∧
      Predicate.treeEach args = (Predicate.entries args).map Prod.snd := by
  induction args with
  | nil => exact ⟨rfl, rfl⟩
  | cons predicate rest ih =>
    rw [Predicate.tokensEach, Predicate.treeEach, ih.1, ih.2]
    exact ⟨rfl, rfl⟩

theorem Predicate.tokens_ne_nil (predicate : Predicate) : predicate.tokens ≠ [] := by
  have hscalar : ∀ (scalar : Scalar) (others : List (Token Bound)), scalar.tokens ++ others ≠ [] := by
    intro scalar others
    obtain ⟨first, rest, hstart, -⟩ := scalar.tokens_head
    rw [hstart]
    exact List.cons_ne_nil _ _
  cases predicate with
  | compare operator left right => exact hscalar left _
  | inList argument values =>
    rw [Predicate.tokens, List.append_assoc]
    exact hscalar argument _
  | isNull argument => exact hscalar argument _
  | isNotNull argument => exact hscalar argument _
  | and args => exact List.cons_ne_nil _ _
  | or args => exact List.cons_ne_nil _ _
  | not argument => exact List.cons_ne_nil _ _

theorem Predicate.entries_length_le {args : List Predicate} {separator : Token Bound} {less : Nat}
    (h : (joined separator (Predicate.tokensEach args)).length ≤ less) :
    (Predicate.entries args).length ≤ less := by
  rw [(Predicate.entries_spec args).1] at h
  have hne : ∀ tokens ∈ (Predicate.entries args).map Prod.fst, tokens ≠ [] := by
    intro tokens ht
    simp only [Predicate.entries, List.map_map, List.mem_map] at ht
    obtain ⟨predicate, -, rfl⟩ := ht
    exact predicate.tokens_ne_nil
  have hcount := (count_le_joined hne).trans h
  rwa [List.length_map] at hcount

theorem Predicate.entry_length_le {args : List Predicate} {separator : Token Bound} {less : Nat}
    (h : (joined separator (Predicate.tokensEach args)).length ≤ less) :
    ∀ entry ∈ Predicate.entries args, entry.1.length ≤ less := by
  intro entry he
  rw [(Predicate.entries_spec args).1] at h
  exact (length_le_joined (List.mem_map_of_mem he)).trans h

section Connectives
variable {args : List Predicate} {less : Nat} (hne : args ≠ [])
  (hreads : ∀ entry ∈ Predicate.entries args,
    Reads (parseNot (parseExpression less) less) 4 entry.1 entry.2)
  (hfuel : (Predicate.entries args).length ≤ less)
include hne hreads hfuel

theorem reads_conjunction :
    Reads (parseNot (parseExpression (less + 1)) (less + 1)) 4 (Predicate.and args).tokens
      (Predicate.and args).tree := by
  have hentries : Predicate.entries args ≠ [] := by simpa [Predicate.entries] using hne
  have hpos : 0 < less := (List.length_pos_iff.mpr hentries).trans_le hfuel
  rw [Predicate.tokens, Predicate.tree, (Predicate.entries_spec args).1,
    (Predicate.entries_spec args).2]
  exact ((reads_and hentries hfuel hreads).parseOr hpos).bracket

theorem reads_disjunction :
    Reads (parseNot (parseExpression (less + 1)) (less + 1)) 4 (Predicate.or args).tokens
      (Predicate.or args).tree := by
  have hentries : Predicate.entries args ≠ [] := by simpa [Predicate.entries] using hne
  have hpos : 0 < less := (List.length_pos_iff.mpr hentries).trans_le hfuel
  rw [Predicate.tokens, Predicate.tree, (Predicate.entries_spec args).1,
    (Predicate.entries_spec args).2]
  exact (reads_or hentries hfuel fun entry he => (hreads entry he).parseAnd hpos).bracket

end Connectives

mutual

theorem Predicate.reads : ∀ (predicate : Predicate) {fuel : Nat}, predicate.Filled →
    predicate.tokens.length ≤ fuel →
    Reads (parseNot (parseExpression fuel) fuel) 4 predicate.tokens predicate.tree
  | .compare operator left right, fuel, _, hfuel => by
    rw [Predicate.tokens, List.length_append, List.length_cons] at hfuel
    have hleft := left.reads (show left.tokens.length ≤ fuel by omega)
    have hright := right.reads (show right.tokens.length ≤ fuel by omega)
    exact left.starts (reads_compare hleft.parseIn hright.parseIn _).parseIs
  | .inList argument values, fuel, hfilled, hfuel => by
    simp only [Predicate.tokens, List.length_append, List.length_cons] at hfuel
    obtain ⟨less, rfl⟩ : ∃ less, fuel = less + 1 := Nat.exists_eq_succ_of_ne_zero (by omega)
    have hargument := argument.reads (show argument.tokens.length ≤ less + 1 by omega)
    have hjoined : (joined .comma (values.map Scalar.tokens)).length ≤ less := by omega
    have hlists : (values.map fun value => (value.tokens, value.tree)).map Prod.fst =
        values.map Scalar.tokens := by rw [List.map_map]; rfl
    have htrees : (values.map fun value => (value.tokens, value.tree)).map Prod.snd =
        values.map Scalar.tree := by rw [List.map_map]; rfl
    have hne : ∀ tokens ∈ values.map Scalar.tokens, tokens ≠ [] := by
      intro tokens ht
      obtain ⟨value, -, rfl⟩ := List.mem_map.mp ht
      obtain ⟨first, rest, hstart, -⟩ := value.tokens_head
      rw [hstart]
      exact List.cons_ne_nil first rest
    have hcount := (count_le_joined hne).trans hjoined
    rw [List.length_map] at hcount
    have hvalues : ∀ entry ∈ values.map fun value => (value.tokens, value.tree),
        Reads (parseExpression (less + 1)) 2 entry.1 entry.2 := by
      intro entry he
      obtain ⟨value, hvalue, rfl⟩ := List.mem_map.mp he
      exact value.reads_whole ((length_le_joined (List.mem_map_of_mem hvalue)).trans hjoined)
    have hin := reads_inList hargument (by simpa [Predicate.Filled] using hfilled)
      (by rw [List.length_map]; omega) hvalues
    rw [hlists, htrees, List.append_assoc] at hin
    rw [Predicate.tokens, Predicate.tree, List.append_assoc]
    exact argument.starts hin.parseComparison.parseIs
  | .isNull argument, fuel, _, hfuel => by
    rw [Predicate.tokens, List.length_append] at hfuel
    have hargument := argument.reads (show argument.tokens.length ≤ fuel by omega)
    exact argument.starts (reads_isNull hargument.parseIn.parseComparison)
  | .isNotNull argument, fuel, _, hfuel => by
    rw [Predicate.tokens, List.length_append] at hfuel
    have hargument := argument.reads (show argument.tokens.length ≤ fuel by omega)
    exact argument.starts (reads_isNotNull hargument.parseIn.parseComparison)
  | .and args, fuel, hfilled, hfuel => by
    rw [Predicate.tokens, List.length_append, List.length_cons, List.length_singleton] at hfuel
    obtain ⟨less, rfl⟩ : ∃ less, fuel = less + 1 := Nat.exists_eq_succ_of_ne_zero (by omega)
    have hjoined : (joined .conjunction (Predicate.tokensEach args)).length ≤ less := by omega
    exact reads_conjunction hfilled.1
      (Predicate.readsEach args hfilled.2 (Predicate.entry_length_le hjoined))
      (Predicate.entries_length_le hjoined)
  | .or args, fuel, hfilled, hfuel => by
    rw [Predicate.tokens, List.length_append, List.length_cons, List.length_singleton] at hfuel
    obtain ⟨less, rfl⟩ : ∃ less, fuel = less + 1 := Nat.exists_eq_succ_of_ne_zero (by omega)
    have hjoined : (joined .disjunction (Predicate.tokensEach args)).length ≤ less := by omega
    exact reads_disjunction hfilled.1
      (Predicate.readsEach args hfilled.2 (Predicate.entry_length_le hjoined))
      (Predicate.entries_length_le hjoined)
  | .not argument, fuel, hfilled, hfuel => by
    simp only [Predicate.tokens, List.length_append, List.length_cons] at hfuel
    obtain ⟨less, rfl⟩ : ∃ less, fuel = less + 1 := Nat.exists_eq_succ_of_ne_zero (by omega)
    have hargument := argument.reads hfilled (show argument.tokens.length ≤ less by omega)
    have hpos : 0 < less := by
      have hlength := List.length_pos_iff.mpr argument.tokens_ne_nil
      omega
    have hwhole : Reads (parseExpression (less + 1)) 2 argument.tokens argument.tree :=
      (hargument.parseAnd hpos).parseOr hpos
    exact hwhole.bracket.negation

theorem Predicate.readsEach : ∀ (args : List Predicate) {fuel : Nat}, Predicate.FilledEach args →
    (∀ entry ∈ Predicate.entries args, entry.1.length ≤ fuel) →
    ∀ entry ∈ Predicate.entries args,
      Reads (parseNot (parseExpression fuel) fuel) 4 entry.1 entry.2
  | [], _, _, _ => by simp [Predicate.entries]
  | predicate :: rest, fuel, hfilled, hfuel => by
    rw [Predicate.entries, List.map_cons, List.forall_mem_cons] at hfuel ⊢
    exact ⟨predicate.reads hfilled.1 hfuel.1, Predicate.readsEach rest hfilled.2 hfuel.2⟩

end

/-- The tokens of a predicate parse as its tree. -/
theorem Predicate.parse_tokens {predicate : Predicate} (h : predicate.Filled) :
    parse predicate.tokens = some predicate.tree := by
  have hpos := List.length_pos_iff.mpr predicate.tokens_ne_nil
  exact parse_of_reads (((predicate.reads h (Nat.le_refl _)).parseAnd hpos).parseOr hpos)

end Postgresem.Sql

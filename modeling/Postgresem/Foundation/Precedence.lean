import Postgresem.Foundation.Tokens
import Postgresem.Relational.Logic

/-! Reading an SQL expression with the operator precedence of PostgreSQL: a cast binds tightest,
then IN, comparison, IS, NOT, AND and OR. A chain of one connective is one node, and a bracket
ends the chain that stands in it. -/
namespace Precedence
open Tokens Relational

inductive Expression (π : Type) where
  | column (qualifier name : String)
  | placeholder (value : π)
  | constant (text : String)
  | call (function : String) (args : List (Expression π))
  | cast (arg : Expression π) (type : String)
  | inList (arg : Expression π) (values : List (Expression π))
  | compare (operator : String) (left right : Expression π)
  | isNull (arg : Expression π)
  | isNotNull (arg : Expression π)
  | not (arg : Expression π)
  | and (args : List (Expression π))
  | or (args : List (Expression π))

section Logic
variable {π : Type}

mutual

/-- The connectives above the other expressions. -/
def Expression.logic : Expression π → Logic (Expression π)
  | .not arg => .not arg.logic
  | .and args => .and (Expression.logicEach args)
  | .or args => .or (Expression.logicEach args)
  | other => .leaf other

def Expression.logicEach : List (Expression π) → List (Logic (Expression π))
  | [] => []
  | arg :: rest => arg.logic :: Expression.logicEach rest

end

theorem Expression.logic_chain (args : List (Expression π)) :
    (chain .and args).logic = chain .and (Expression.logicEach args) ∧
      (chain .or args).logic = chain .or (Expression.logicEach args) := by
  match args with
  | [] => exact ⟨rfl, rfl⟩
  | [_] => exact ⟨rfl, rfl⟩
  | _ :: _ :: _ => exact ⟨rfl, rfl⟩

end Logic

variable {π : Type} [DecidableEq π]

/-- A parser reads a value from the front of the tokens and returns the tokens after it. -/
abbrev Parser (π α : Type) := List (Token π) → Option (α × List (Token π))

section Grammar

/-- One or more elements with separators between them. -/
def parseMany {α : Type} (separator : Token π) (element : Parser π α) : Nat → Parser π (List α)
  | 0, _ => none
  | fuel + 1, tokens =>
    match element tokens with
    | none => none
    | some (first, []) => some ([first], [])
    | some (first, token :: rest) =>
      if token = separator then
        (parseMany separator element fuel rest).map fun others => (first :: others.1, others.2)
      else some ([first], token :: rest)

-- `item` reads what stands in brackets
variable (item : Parser π (Expression π)) (fuel : Nat)

/-- Expressions separated by commas, and the bracket after them. -/
def parseItems : Parser π (List (Expression π)) := fun tokens =>
  match parseMany .comma item fuel tokens with
  | some (values, .closing :: rest) => some (values, rest)
  | _ => none

def parsePrimary : Parser π (Expression π)
  | .placeholder value :: rest => some (.placeholder value, rest)
  | .constant text :: rest => some (.constant text, rest)
  | .word qualifier :: .dot :: .name column :: rest => some (.column qualifier column, rest)
  | .word function :: .opening :: rest =>
    (parseItems item fuel rest).map fun args => (.call function args.1, args.2)
  | .opening :: rest =>
    match item rest with
    | some (inner, .closing :: after) => some (inner, after)
    | _ => none
  | _ => none

def parseCasts : Expression π → List (Token π) → Expression π × List (Token π)
  | arg, .castSign :: .word type :: rest => parseCasts (.cast arg type) rest
  | arg, tokens => (arg, tokens)

def parseCast : Parser π (Expression π) := fun tokens =>
  (parsePrimary item fuel tokens).map fun arg => parseCasts arg.1 arg.2

def parseIn : Parser π (Expression π) := fun tokens =>
  match parseCast item fuel tokens with
  | some (arg, .inWord :: .opening :: rest) =>
    (parseItems item fuel rest).map fun values => (.inList arg values.1, values.2)
  | other => other

def parseComparison : Parser π (Expression π) := fun tokens =>
  match parseIn item fuel tokens with
  | some (left, .comparison operator :: rest) =>
    (parseIn item fuel rest).map fun right => (.compare operator left right.1, right.2)
  | other => other

def parseIs : Parser π (Expression π) := fun tokens =>
  match parseComparison item fuel tokens with
  | some (arg, .isWord :: .nullWord :: rest) => some (.isNull arg, rest)
  | some (arg, .isWord :: .negation :: .nullWord :: rest) => some (.isNotNull arg, rest)
  | other => other

def parseNot : Parser π (Expression π)
  | .negation :: rest => (parseNot rest).map fun arg => (.not arg.1, arg.2)
  | tokens => parseIs item fuel tokens

def parseAnd : Parser π (Expression π) := fun tokens =>
  (parseMany .conjunction (parseNot item fuel) fuel tokens).map fun args =>
    (chain .and args.1, args.2)

def parseOr : Parser π (Expression π) := fun tokens =>
  (parseMany .disjunction (parseAnd item fuel) fuel tokens).map fun args =>
    (chain .or args.1, args.2)

end Grammar

def parseExpression : Nat → Parser π (Expression π)
  | 0 => fun _ => none
  | fuel + 1 => parseOr (parseExpression fuel) fuel

/-- Every bracket and every element of a list takes a token, so that the length is enough fuel. -/
def parse (tokens : List (Token π)) : Option (Expression π) :=
  match parseExpression (tokens.length + 1) tokens with
  | some (expression, []) => some expression
  | _ => none

/-! ## What a parser reads -/

/-- How tight a token binds what stands before it. -/
def binding : Token π → Nat
  | .castSign => 7
  | .inWord => 6
  | .comparison _ => 5
  | .isWord => 4
  | .conjunction => 3
  | .disjunction => 2
  | .comma => 1
  | _ => 0

/-- Nothing binds the end of an expression tighter than the level. -/
def Below (level : Nat) (rest : List (Token π)) : Prop := ∀ token ∈ rest.head?, binding token < level

/-- The parser reads the tokens as the value whatever follows, below its level. -/
def Reads {α : Type} (parser : Parser π α) (level : Nat) (tokens : List (Token π)) (value : α) :
    Prop :=
  ∀ rest, Below level rest → parser (tokens ++ rest) = some (value, rest)

omit [DecidableEq π] in
theorem Below.mono {low high : Nat} (h : low ≤ high) {rest : List (Token π)}
    (hrest : Below low rest) : Below high rest :=
  fun token ht => lt_of_lt_of_le (hrest token ht) h

omit [DecidableEq π] in
theorem below_nil (level : Nat) : Below level ([] : List (Token π)) := by
  intro token ht
  cases ht

omit [DecidableEq π] in
theorem below_cons {level : Nat} {token : Token π} {rest : List (Token π)} :
    Below level (token :: rest) ↔ binding token < level := by
  simp [Below]

section Levels
variable {item : Parser π (Expression π)} {fuel : Nat} {tokens : List (Token π)}
  {value : Expression π}

omit [DecidableEq π] in
theorem parseCasts_below {rest : List (Token π)} (h : Below 7 rest) (arg : Expression π) :
    parseCasts arg rest = (arg, rest) := by
  rw [parseCasts]
  rintro type after rfl
  exact absurd (below_cons.mp h) (by simp [binding])

theorem Reads.parseIn (h : Reads (parseCast item fuel) 7 tokens value) :
    Reads (parseIn item fuel) 6 tokens value := by
  intro rest hrest
  rw [Precedence.parseIn, h rest (hrest.mono (by decide))]
  cases rest with
  | nil => rfl
  | cons token rest =>
    cases token <;> first | rfl | exact absurd (below_cons.mp hrest) (by simp [binding])

theorem Reads.parseComparison (h : Reads (Precedence.parseIn item fuel) 6 tokens value) :
    Reads (parseComparison item fuel) 5 tokens value := by
  intro rest hrest
  rw [Precedence.parseComparison, h rest (hrest.mono (by decide))]
  cases rest with
  | nil => rfl
  | cons token rest =>
    cases token <;> first | rfl | exact absurd (below_cons.mp hrest) (by simp [binding])

theorem Reads.parseIs (h : Reads (Precedence.parseComparison item fuel) 5 tokens value) :
    Reads (parseIs item fuel) 4 tokens value := by
  intro rest hrest
  rw [Precedence.parseIs, h rest (hrest.mono (by decide))]
  cases rest with
  | nil => rfl
  | cons token rest =>
    cases token <;> first | rfl | exact absurd (below_cons.mp hrest) (by simp [binding])

/-- What does not start with a negation reads the same where one may stand. -/
theorem Reads.parseNot (h : Reads (Precedence.parseIs item fuel) 4 tokens value)
    (hstart : tokens.head? ≠ some .negation) (hne : tokens ≠ []) :
    Reads (parseNot item fuel) 4 tokens value := by
  intro rest hrest
  obtain ⟨first, others, rfl⟩ := List.exists_cons_of_ne_nil hne
  rw [List.cons_append, Precedence.parseNot, ← List.cons_append]
  · exact h rest hrest
  · intro after hafter
    exact hstart (congrArg some (List.cons.inj hafter).1)

theorem Reads.negation (h : Reads (Precedence.parseNot item fuel) 4 tokens value) :
    Reads (Precedence.parseNot item fuel) 4 (.negation :: tokens) (.not value) := by
  intro rest hrest
  rw [List.cons_append, Precedence.parseNot, h rest hrest]
  rfl

end Levels

/-! ## Chains -/

section Chains
variable {α : Type} {separator : Token π} {element : Parser π α} {level : Nat}

/-- Elements with the separator between them. -/
def joined (separator : Token π) : List (List (Token π)) → List (Token π)
  | [] => []
  | [tokens] => tokens
  | tokens :: next :: rest => tokens ++ separator :: joined separator (next :: rest)

omit [DecidableEq π] in
theorem length_le_joined {entries : List (List (Token π))} {entry : List (Token π)}
    (h : entry ∈ entries) : entry.length ≤ (joined separator entries).length := by
  induction entries with
  | nil => cases h
  | cons first entries ih =>
    cases entries with
    | nil => rw [List.mem_singleton.mp h, joined]
    | cons next entries =>
      rw [joined, List.length_append, List.length_cons]
      rcases List.mem_cons.mp h with rfl | h
      · omega
      · have hrest := ih h
        omega

omit [DecidableEq π] in
theorem count_le_joined {entries : List (List (Token π))} (h : ∀ entry ∈ entries, entry ≠ []) :
    entries.length ≤ (joined separator entries).length := by
  induction entries with
  | nil => exact Nat.le_refl 0
  | cons first entries ih =>
    have hfirst := List.length_pos_iff.mpr (h first List.mem_cons_self)
    cases entries with
    | nil => exact hfirst
    | cons next entries =>
      have hrest := ih fun entry he => h entry (List.mem_cons_of_mem first he)
      simp only [joined, List.length_append, List.length_cons] at hrest ⊢
      omega

theorem parseMany_last {tokens rest : List (Token π)} {value : α}
    (h : element tokens = some (value, rest)) (hrest : Below (binding separator) rest)
    (fuel : Nat) : parseMany separator element (fuel + 1) tokens = some ([value], rest) := by
  rw [parseMany, h]
  cases rest with
  | nil => rfl
  | cons token rest =>
    have htoken : token ≠ separator := by
      rintro rfl
      exact lt_irrefl _ (below_cons.mp hrest)
    exact if_neg htoken

theorem parseMany_more {tokens rest after : List (Token π)} {value : α} {values : List α}
    {fuel : Nat} (h : element tokens = some (value, separator :: rest))
    (hmore : parseMany separator element fuel rest = some (values, after)) :
    parseMany separator element (fuel + 1) tokens = some (value :: values, after) := by
  rw [parseMany, h]
  simp only [if_true, hmore, Option.map_some]

/-- A chain reads as its elements when its separator may follow them. -/
theorem reads_many (hseparator : binding separator < level)
    {entries : List (List (Token π) × α)} (hne : entries ≠ [])
    (h : ∀ entry ∈ entries, Reads element level entry.1 entry.2) {fuel : Nat}
    (hfuel : entries.length ≤ fuel) :
    Reads (parseMany separator element fuel) (binding separator)
      (joined separator (entries.map Prod.fst)) (entries.map Prod.snd) := by
  induction entries generalizing fuel with
  | nil => exact absurd rfl hne
  | cons entry entries ih =>
    obtain ⟨fuel, rfl⟩ : ∃ less, fuel = less + 1 :=
      Nat.exists_eq_succ_of_ne_zero (by rw [List.length_cons] at hfuel; omega)
    intro rest hrest
    have hentry := h entry List.mem_cons_self
    cases entries with
    | nil =>
      exact parseMany_last (hentry rest (hrest.mono hseparator.le)) hrest fuel
    | cons next entries =>
      have hothers := ih (List.cons_ne_nil next entries)
        (fun other ho => h other (List.mem_cons_of_mem entry ho))
        (Nat.le_of_succ_le_succ hfuel) rest hrest
      rw [List.map_cons, List.map_cons, List.map_cons, joined, List.append_assoc,
        List.cons_append, ← List.map_cons]
      exact parseMany_more (hentry _ (below_cons.mpr hseparator)) hothers

end Chains

section Expressions
variable {item : Parser π (Expression π)} {fuel : Nat}
  {entries : List (List (Token π) × Expression π)}

theorem reads_and (hne : entries ≠ []) (hfuel : entries.length ≤ fuel)
    (h : ∀ entry ∈ entries, Reads (parseNot item fuel) 4 entry.1 entry.2) :
    Reads (parseAnd item fuel) 3 (joined .conjunction (entries.map Prod.fst))
      (chain .and (entries.map Prod.snd)) := by
  intro rest hrest
  have hbinding : binding (.conjunction : Token π) < 4 := Nat.lt_succ_self 3
  rw [parseAnd, reads_many hbinding hne h hfuel rest hrest]
  rfl

theorem reads_or (hne : entries ≠ []) (hfuel : entries.length ≤ fuel)
    (h : ∀ entry ∈ entries, Reads (parseAnd item fuel) 3 entry.1 entry.2) :
    Reads (parseOr item fuel) 2 (joined .disjunction (entries.map Prod.fst))
      (chain .or (entries.map Prod.snd)) := by
  intro rest hrest
  have hbinding : binding (.disjunction : Token π) < 3 := Nat.lt_succ_self 2
  rw [parseOr, reads_many hbinding hne h hfuel rest hrest]
  rfl

variable {tokens : List (Token π)} {value : Expression π}

theorem Reads.parseAnd (h : Reads (Precedence.parseNot item fuel) 4 tokens value)
    (hfuel : 0 < fuel) : Reads (Precedence.parseAnd item fuel) 3 tokens value :=
  reads_and (List.cons_ne_nil (tokens, value) []) hfuel (by simpa using h)

theorem Reads.parseOr (h : Reads (Precedence.parseAnd item fuel) 3 tokens value)
    (hfuel : 0 < fuel) : Reads (Precedence.parseOr item fuel) 2 tokens value :=
  reads_or (List.cons_ne_nil (tokens, value) []) hfuel (by simpa using h)

theorem parseItems_joined (hne : entries ≠ []) (hfuel : entries.length ≤ fuel)
    (h : ∀ entry ∈ entries, Reads item 2 entry.1 entry.2) (rest : List (Token π)) :
    parseItems item fuel (joined .comma (entries.map Prod.fst) ++ .closing :: rest) =
      some (entries.map Prod.snd, rest) := by
  have hbinding : binding (.comma : Token π) < 2 := Nat.lt_succ_self 1
  have hclosing : Below (binding (.comma : Token π)) (.closing :: rest) :=
    below_cons.mpr Nat.one_pos
  rw [parseItems, reads_many hbinding hne h hfuel _ hclosing]

theorem parsePrimary_bracket (h : Reads item 2 tokens value) (rest : List (Token π)) :
    parsePrimary item fuel (.opening :: tokens ++ .closing :: rest) = some (value, rest) := by
  have hclosing : Below 2 (.closing :: rest) := below_cons.mpr Nat.two_pos
  rw [List.cons_append, parsePrimary, h _ hclosing]

/-- A primary with the casts that follow it. -/
def castTokens (types : List String) : List (Token π) :=
  types.flatMap fun type => [.castSign, .word type]

omit [DecidableEq π] in
theorem parseCasts_castTokens (types : List String) {rest : List (Token π)} (hrest : Below 7 rest)
    (arg : Expression π) :
    parseCasts arg (castTokens types ++ rest) = (types.foldl .cast arg, rest) := by
  induction types generalizing arg with
  | nil => exact parseCasts_below hrest arg
  | cons type types ih => exact ih (.cast arg type)

theorem reads_cast (tokens : List (Token π)) (h : ∀ rest, parsePrimary item fuel (tokens ++ rest) = some (value, rest))
    (types : List String) :
    Reads (parseCast item fuel) 7 (tokens ++ castTokens types) (types.foldl .cast value) := by
  intro rest hrest
  rw [List.append_assoc, parseCast, h, Option.map_some, parseCasts_castTokens types hrest]

/-- A function call with the casts that follow it. -/
theorem reads_call (function : String) (types : List String) (hne : entries ≠ [])
    (hfuel : entries.length ≤ fuel) (h : ∀ entry ∈ entries, Reads item 2 entry.1 entry.2) :
    Reads (parseCast item fuel) 7 (.word function :: .opening ::
        joined .comma (entries.map Prod.fst) ++ .closing :: castTokens types)
      (types.foldl .cast (.call function (entries.map Prod.snd))) := by
  have hcall : ∀ rest, parsePrimary item fuel ((.word function :: .opening ::
      joined .comma (entries.map Prod.fst) ++ [.closing]) ++ rest) =
        some (.call function (entries.map Prod.snd), rest) := by
    intro rest
    rw [List.append_assoc, List.cons_append, List.cons_append, parsePrimary, List.singleton_append,
      parseItems_joined hne hfuel h rest, Option.map_some]
  have hreads := reads_cast _ hcall types
  rw [List.append_assoc, List.singleton_append] at hreads
  exact hreads

theorem reads_inList (harg : Reads (parseCast item fuel) 7 tokens value) (hne : entries ≠ [])
    (hfuel : entries.length ≤ fuel) (h : ∀ entry ∈ entries, Reads item 2 entry.1 entry.2) :
    Reads (parseIn item fuel) 6
      (tokens ++ .inWord :: .opening :: joined .comma (entries.map Prod.fst) ++ [.closing])
      (.inList value (entries.map Prod.snd)) := by
  intro rest _
  have hin : ∀ after : List (Token π), Below 7 (.inWord :: after) :=
    fun _ => below_cons.mpr (Nat.lt_succ_self 6)
  rw [List.append_assoc, List.append_assoc, parseIn]
  simp only [List.cons_append, List.nil_append, harg _ (hin _),
    parseItems_joined hne hfuel h rest, Option.map_some]

/-- An expression in brackets reads wherever an operand may stand. -/
theorem Reads.bracket (h : Reads item 2 tokens value) :
    Reads (Precedence.parseNot item fuel) 4 (.opening :: tokens ++ [.closing]) value := by
  have hprimary : ∀ rest, parsePrimary item fuel ((.opening :: tokens ++ [.closing]) ++ rest) =
      some (value, rest) := by
    intro rest
    rw [List.append_assoc, List.singleton_append]
    exact parsePrimary_bracket h rest
  have hcast := reads_cast _ hprimary []
  rw [castTokens, List.flatMap_nil, List.append_nil] at hcast
  exact hcast.parseIn.parseComparison.parseIs.parseNot (by simp) (by simp)

variable {others : List (Token π)} {other : Expression π}

theorem reads_compare (hleft : Reads (parseIn item fuel) 6 tokens value)
    (hright : Reads (parseIn item fuel) 6 others other) (operator : String) :
    Reads (parseComparison item fuel) 5 (tokens ++ .comparison operator :: others)
      (.compare operator value other) := by
  intro rest hrest
  have hoperator : ∀ after : List (Token π), Below 6 (.comparison operator :: after) :=
    fun _ => below_cons.mpr (Nat.lt_succ_self 5)
  rw [List.append_assoc, parseComparison]
  simp only [List.cons_append, hleft _ (hoperator _), hright rest (hrest.mono (by omega)),
    Option.map_some]

theorem reads_isNull (h : Reads (parseComparison item fuel) 5 tokens value) :
    Reads (parseIs item fuel) 4 (tokens ++ [.isWord, .nullWord]) (.isNull value) := by
  intro rest _
  have his : ∀ after : List (Token π), Below 5 (.isWord :: after) :=
    fun _ => below_cons.mpr (Nat.lt_succ_self 4)
  rw [List.append_assoc, parseIs]
  simp only [List.cons_append, List.nil_append, h _ (his _)]

theorem reads_isNotNull (h : Reads (parseComparison item fuel) 5 tokens value) :
    Reads (parseIs item fuel) 4 (tokens ++ [.isWord, .negation, .nullWord])
      (.isNotNull value) := by
  intro rest _
  have his : ∀ after : List (Token π), Below 5 (.isWord :: after) :=
    fun _ => below_cons.mpr (Nat.lt_succ_self 4)
  rw [List.append_assoc, parseIs]
  simp only [List.cons_append, List.nil_append, h _ (his _)]

/-- Tokens that an expression reads as, and nothing else, parse as it. -/
theorem parse_of_reads (h : Reads (parseExpression (tokens.length + 1)) 2 tokens value) :
    parse tokens = some value := by
  have hall := h [] (below_nil 2)
  rw [List.append_nil] at hall
  rw [parse, hall]

end Expressions

end Precedence

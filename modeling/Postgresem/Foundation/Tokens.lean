import Postgresem.Foundation.Placeholders

/-! Tokens of an SQL text. Characters of one class that stand together are one token; white space,
brackets, quoted tokens and placeholders end a token that stands before them. -/
namespace Tokens
open Lexing Placeholders

/-- Upper-case keywords have tokens of their own; `other` is what no rule of the grammar reads. -/
inductive Token (π : Type) where
  | conjunction | disjunction | negation
  | isWord | inWord | nullWord
  | opening | closing | comma | dot | castSign
  | comparison (operator : String)
  | word (text : String)
  | name (text : String)
  | constant (text : String)
  | placeholder (value : π)
  | other (text : String)
  deriving DecidableEq

inductive CharClass where
  | word | operator | colon | space | single
  deriving DecidableEq

def classOf (c : Char) : CharClass :=
  if c.isAlphanum || c == '_' then .word
  else if c == '<' || c == '>' || c == '=' then .operator
  else if c == ':' then .colon
  else if c == ' ' || c == '\n' then .space
  else .single

variable {π : Type}

def ofWord (text : String) : Token π :=
  if text = "AND" then .conjunction
  else if text = "OR" then .disjunction
  else if text = "NOT" then .negation
  else if text = "IS" then .isWord
  else if text = "IN" then .inWord
  else if text = "NULL" then .nullWord
  else .word text

def comparisonTexts : List String := ["<", ">", "=", "<=", ">=", "<>"]

def ofSymbol (text : String) : Token π :=
  if text = "(" then .opening
  else if text = ")" then .closing
  else if text = "," then .comma
  else if text = "." then .dot
  else if text = "::" then .castSign
  else if text ∈ comparisonTexts then .comparison text
  else .other text

def ofClass : CharClass → String → Token π
  | .word, text => ofWord text
  | _, text => ofSymbol text

/-- The characters of a token that may go on, with their class. -/
abbrev Pending := Option (CharClass × List Char)

def flush : Pending → List (Token π)
  | none => []
  | some (kind, chars) => [ofClass kind (String.ofList chars)]

/-- The tokens that a character ends, and what is pending after it. -/
def advance (pending : Pending) (c : Char) : List (Token π) × Pending :=
  match classOf c with
  | .space => (flush pending, none)
  | .single => (flush pending ++ [ofSymbol (String.ofList [c])], none)
  | kind =>
    match pending with
    | none => ([], some (kind, [c]))
    | some (before, chars) =>
      if kind = before then ([], some (kind, chars ++ [c]))
      else (flush pending, some (kind, [c]))

def tokenize : Pending → List (Item π) → List (Token π)
  | pending, [] => flush pending
  | pending, .lexeme (.plain c) :: rest =>
    (advance pending c).1 ++ tokenize (advance (π := π) pending c).2 rest
  | pending, .lexeme (.identifier text) :: rest => flush pending ++ .name text :: tokenize none rest
  | pending, .lexeme (.constant text) :: rest =>
    flush pending ++ .constant text :: tokenize none rest
  | pending, .value value :: rest => flush pending ++ .placeholder value :: tokenize none rest

def textTokens (text : String) : List (Token π) := tokenize none (fixedItems text)

/-- The items end a token that stands before them. -/
def Breaking (items : List (Item π)) : Prop :=
  ∀ pending, tokenize pending items = flush pending ++ tokenize none items

theorem breaking_nil : Breaking ([] : List (Item π)) := by
  intro pending
  simp [tokenize, flush]

def breaksTokens (c : Char) : Bool := classOf c == .space || classOf c == .single

theorem advance_of_breaks {c : Char} (h : breaksTokens c = true) (pending : Pending) :
    (advance pending c).1 = (flush pending ++ (advance none c).1 : List (Token π)) ∧
      (advance (π := π) pending c).2 = none := by
  rw [breaksTokens, Bool.or_eq_true, beq_iff_eq, beq_iff_eq] at h
  unfold advance
  rcases h with h | h
  · simp [h, flush]
  · simp [h, flush]

theorem breaking_plain {c : Char} (h : breaksTokens c = true) (rest : List (Item π)) :
    Breaking (.lexeme (.plain c) :: rest) := by
  intro pending
  rw [tokenize, tokenize, (advance_of_breaks h pending).1, (advance_of_breaks h pending).2,
    (advance_of_breaks h none).2, List.append_assoc]

theorem tokenize_append {ys : List (Item π)} (h : Breaking ys) (xs : List (Item π))
    (pending : Pending) : tokenize pending (xs ++ ys) = tokenize pending xs ++ tokenize none ys := by
  induction xs generalizing pending with
  | nil => exact h pending
  | cons x xs ih =>
    cases x with
    | value value => rw [List.cons_append, tokenize, ih, tokenize]; simp
    | lexeme lexeme =>
      cases lexeme with
      | plain c => rw [List.cons_append, tokenize, ih, tokenize, List.append_assoc]
      | identifier text => rw [List.cons_append, tokenize, ih, tokenize]; simp
      | constant text => rw [List.cons_append, tokenize, ih, tokenize]; simp

theorem fixedItems_eq (text : String) :
    fixedItems (π := π) text = text.toList.map fun c => .lexeme (.plain c) := by
  rw [fixedItems, plainText, List.map_map]
  rfl

def startsToken (text : String) : Bool := text.toList.head?.any breaksTokens

theorem breaking_fixed {text : String} (h : startsToken text = true) (rest : List (Item π)) :
    Breaking (fixedItems text ++ rest) := by
  rw [fixedItems_eq]
  unfold startsToken at h
  cases htext : text.toList with
  | nil => simp [htext] at h
  | cons c cs =>
    rw [htext] at h
    exact breaking_plain h _

/-- A text that ends in a break is tokenized by itself. -/
theorem tokenize_closed {text : String} (h : text.toList.getLast?.any breaksTokens = true)
    (rest : List (Item π)) :
    tokenize none (fixedItems text ++ rest) = textTokens text ++ tokenize none rest := by
  obtain ⟨c, hlast, hbreaks⟩ := Option.any_eq_true _ _ |>.mp h
  obtain ⟨init, htext⟩ := List.getLast?_eq_some_iff.mp hlast
  have hone : ∀ ys : List (Item π), tokenize none (.lexeme (.plain c) :: ys) =
      (advance none c).1 ++ tokenize none ys := by
    intro ys
    rw [tokenize, (advance_of_breaks hbreaks none).2]
  rw [textTokens, fixedItems_eq, htext, List.map_append, List.append_assoc, List.map_singleton,
    List.singleton_append, tokenize_append (breaking_plain hbreaks rest),
    tokenize_append (breaking_plain hbreaks []), hone, hone]
  simp [tokenize, flush]

/-- Word characters stand together. -/
theorem tokenize_word {text : List Char} (h : ∀ c ∈ text, classOf c = .word) (chars : List Char)
    (rest : List (Item π)) :
    tokenize (some (.word, chars)) ((text.map fun c => .lexeme (.plain c)) ++ rest) =
      tokenize (some (.word, chars ++ text)) rest := by
  induction text generalizing chars with
  | nil => simp
  | cons c cs ih =>
    have hc := h c List.mem_cons_self
    rw [List.map_cons, List.cons_append, tokenize]
    simp only [advance, hc, if_true, List.nil_append]
    rw [ih (fun d hd => h d (List.mem_cons_of_mem c hd)), List.append_assoc]
    rfl

end Tokens

import Postgresem.Foundation.Lexing

/-! Placeholders in a statement: a dollar sign with the digits of a position. A text reads back as
items in which each placeholder is one item with its position; a template has the same items with
the values themselves in place of the positions. -/
namespace Placeholders
open Template Lexing

inductive Item (π : Type) where
  | lexeme (lexeme : Lexeme)
  | value (value : π)
  deriving DecidableEq

variable {π π' : Type}

def Item.map (f : π → π') : Item π → Item π'
  | .lexeme read => .lexeme read
  | .value held => .value (f held)

def digitValue (digit : Char) : Nat := digit.toNat - '0'.toNat

/-- Reads the placeholders of a text; inside one the position read so far is kept. -/
def read : Option Nat → List Lexeme → List (Item Nat)
  | none, [] => []
  | some position, [] => [.value position]
  | none, .plain c :: rest =>
    if c = '$' then read (some 0) rest else .lexeme (.plain c) :: read none rest
  | some position, .plain c :: rest =>
    if c.isDigit then read (some (10 * position + digitValue c)) rest
    else .value position ::
      if c = '$' then read (some 0) rest else .lexeme (.plain c) :: read none rest
  | none, lexeme :: rest => .lexeme lexeme :: read none rest
  | some position, lexeme :: rest => .value position :: .lexeme lexeme :: read none rest

def fixedItems (text : String) : List (Item π) := (plainText text).map .lexeme

/-- The items of a template, with the values of its holes. -/
def items : List (Piece π) → List (Item π)
  | [] => []
  | .raw text :: rest => fixedItems text ++ items rest
  | .name lead identifier :: rest =>
    fixedItems lead ++ .lexeme (.identifier identifier) :: items rest
  | .constant lead text :: rest => fixedItems lead ++ .lexeme (.constant text) :: items rest
  | .hole value :: rest => .value value :: items rest

section Items

@[simp] theorem items_nil : items ([] : List (Piece π)) = [] := rfl

@[simp] theorem items_raw (text : String) (rest : List (Piece π)) :
    items (.raw text :: rest) = fixedItems text ++ items rest := rfl

@[simp] theorem items_name (lead identifier : String) (rest : List (Piece π)) :
    items (.name lead identifier :: rest) =
      fixedItems lead ++ .lexeme (.identifier identifier) :: items rest := rfl

@[simp] theorem items_constant (lead text : String) (rest : List (Piece π)) :
    items (.constant lead text :: rest) =
      fixedItems lead ++ .lexeme (.constant text) :: items rest := rfl

@[simp] theorem items_hole (value : π) (rest : List (Piece π)) :
    items (.hole value :: rest) = .value value :: items rest := rfl

@[simp] theorem items_append (xs ys : List (Piece π)) : items (xs ++ ys) = items xs ++ items ys := by
  induction xs with
  | nil => rfl
  | cons p ps ih => cases p <;> simp [ih]

end Items

theorem fixedItems_map (f : π → π') (text : String) :
    (fixedItems text).map (Item.map f) = fixedItems text := by
  rw [fixedItems, fixedItems, List.map_map]
  rfl

/-! ## What follows a placeholder -/

/-- The characters after a place, as far as they belong to a suffix. -/
def suffix (belongs : Char → Bool) : List (Item π) → List Char
  | .lexeme (.plain c) :: rest => if belongs c then c :: suffix belongs rest else []
  | _ => []

/-- Each placeholder with its suffix. -/
def sites (belongs : Char → Bool) : List (Item π) → List (π × List Char)
  | [] => []
  | .value value :: rest => (value, suffix belongs rest) :: sites belongs rest
  | .lexeme _ :: rest => sites belongs rest

section Sites
variable (belongs : Char → Bool)

theorem suffix_append {xs ys : List (Item π)} (h : suffix belongs ys = []) :
    suffix belongs (xs ++ ys) = suffix belongs xs := by
  induction xs with
  | nil => exact h
  | cons x xs ih =>
    cases x with
    | value value => rfl
    | lexeme lexeme =>
      cases lexeme with
      | plain c => rw [List.cons_append, suffix, suffix, ih]
      | identifier name => rfl
      | constant text => rfl

theorem sites_append {xs ys : List (Item π)} (h : suffix belongs ys = []) :
    sites belongs (xs ++ ys) = sites belongs xs ++ sites belongs ys := by
  induction xs with
  | nil => rfl
  | cons x xs ih =>
    cases x with
    | value value => rw [List.cons_append, sites, sites, ih, suffix_append belongs h, List.cons_append]
    | lexeme lexeme => rw [List.cons_append, sites, sites, ih]

theorem sites_fixedItems (text : String) (rest : List (Item π)) :
    sites belongs (fixedItems text ++ rest) = sites belongs rest := by
  unfold fixedItems plainText
  induction text.toList with
  | nil => rfl
  | cons c cs ih => exact ih

theorem suffix_fixedItems {text : String} {rest : List (Item π)}
    (h : text.toList.all belongs = true) :
    suffix belongs (fixedItems text ++ rest) = text.toList ++ suffix belongs rest := by
  unfold fixedItems plainText
  revert h
  induction text.toList with
  | nil => intro _; rfl
  | cons c cs ih =>
    intro h
    rw [List.all_cons, Bool.and_eq_true] at h
    rw [List.map_cons, List.map_cons, List.cons_append, suffix, if_pos h.1, ih h.2,
      List.cons_append]

/-- Text that starts with a character outside suffixes ends the one before it. -/
theorem suffix_eq_nil {text : String} {c : Char} {rest : List (Item π)}
    (h : text.toList.head? = some c) (hc : belongs c = false) :
    suffix belongs (fixedItems text ++ rest) = [] := by
  unfold fixedItems plainText
  cases htext : text.toList with
  | nil => simp [htext] at h
  | cons first cs =>
    rw [htext, List.head?_cons, Option.some.injEq] at h
    rw [List.map_cons, List.map_cons, List.cons_append, suffix, h, if_neg (by simp [hc])]

theorem suffix_map (f : π → π') (xs : List (Item π)) :
    suffix belongs (xs.map (Item.map f)) = suffix belongs xs := by
  induction xs with
  | nil => rfl
  | cons x xs ih =>
    cases x with
    | value value => rfl
    | lexeme lexeme =>
      cases lexeme with
      | plain c => rw [List.map_cons, Item.map, suffix, suffix, ih]
      | identifier name => rfl
      | constant text => rfl

theorem sites_map (f : π → π') (xs : List (Item π)) :
    sites belongs (xs.map (Item.map f)) = (sites belongs xs).map fun site => (f site.1, site.2) := by
  induction xs with
  | nil => rfl
  | cons x xs ih =>
    cases x with
    | value value => rw [List.map_cons, Item.map, sites, sites, ih, suffix_map, List.map_cons]
    | lexeme lexeme => rw [List.map_cons, Item.map, sites, sites, ih]

end Sites

/-- The placeholders of a template are its holes. -/
theorem sites_items (belongs : Char → Bool) (template : List (Piece π)) :
    (sites belongs (items template)).map Prod.fst = holes template := by
  induction template with
  | nil => rfl
  | cons p ps ih =>
    cases p with
    | raw text => rw [items_raw, sites_fixedItems, holes_raw, ih]
    | name lead identifier => rw [items_name, sites_fixedItems, sites, holes_name, ih]
    | constant lead text => rw [items_constant, sites_fixedItems, sites, holes_constant, ih]
    | hole value => rw [items_hole, sites, List.map_cons, holes_hole, ih]

/-! ## Reading an assembled text -/

/-- Fixed text without a dollar sign, so that every placeholder stands for a hole. -/
def Undollared : Piece π → Prop
  | .raw text => '$' ∉ text.toList
  | .name lead _ | .constant lead _ => '$' ∉ lead.toList
  | .hole _ => True

/-- No digit follows a placeholder. -/
def Delimited (xs : List (Item π)) : Prop := ∀ site ∈ sites Char.isDigit xs, site.2 = []

theorem read_plain {text : List Char} (h : '$' ∉ text) (rest : List Lexeme) :
    read none (text.map .plain ++ rest) = (text.map fun c => .lexeme (.plain c)) ++ read none rest := by
  induction text with
  | nil => rfl
  | cons c cs ih =>
    simp only [List.mem_cons, not_or] at h
    rw [List.map_cons, List.cons_append, read, if_neg (Ne.symm h.1), ih h.2, List.map_cons,
      List.cons_append]

theorem read_fixed {text : String} (h : '$' ∉ text.toList) (rest : List Lexeme) :
    read none (plainText text ++ rest) = fixedItems text ++ read none rest := by
  rw [plainText, read_plain h, fixedItems, plainText, List.map_map]
  rfl

theorem read_identifier (name : String) (rest : List Lexeme) :
    read none (.identifier name :: rest) = .lexeme (.identifier name) :: read none rest := by
  rw [read]
  intro c hc
  cases hc

theorem read_constant (text : String) (rest : List Lexeme) :
    read none (.constant text :: rest) = .lexeme (.constant text) :: read none rest := by
  rw [read]
  intro c hc
  cases hc

theorem read_digits {digits : List Char} (h : ∀ c ∈ digits, c.isDigit = true) (position : Nat)
    (rest : List Lexeme) : read (some position) (digits.map .plain ++ rest) =
      read (some (Nat.ofDigitChars 10 digits position)) rest := by
  induction digits generalizing position with
  | nil => rfl
  | cons c cs ih =>
    rw [List.map_cons, List.cons_append, read, if_pos (h c (by simp)),
      ih fun d hd => h d (by simp [hd])]
    rfl

/-- What a position is followed by ends it, unless it is another digit. -/
theorem read_value {rest : List Lexeme} {xs : List (Item Nat)} (position : Nat)
    (hrest : read none rest = xs) (hdelimited : suffix Char.isDigit xs = []) :
    read (some position) rest = .value position :: xs := by
  subst hrest
  cases rest with
  | nil => rfl
  | cons lexeme rest =>
    cases lexeme with
    | identifier name => rfl
    | constant text => rfl
    | plain c =>
      rw [read, read]
      by_cases hdollar : c = '$'
      · subst hdollar
        rfl
      · rw [read, if_neg hdollar] at hdelimited
        have hdigit : c.isDigit = false := by
          by_contra hdigit
          rw [Bool.not_eq_false] at hdigit
          rw [suffix, if_pos hdigit] at hdelimited
          cases hdelimited
        rw [hdigit, if_neg hdollar, if_neg Bool.false_ne_true]

variable [DecidableEq π]

theorem prefix_assemble_pool (template : List (Piece π)) (pool : List π) :
    pool <+: (assemble template pool).2 := by
  induction template generalizing pool with
  | nil => exact List.prefix_rfl
  | cons p ps ih =>
    cases p with
    | raw text => exact ih pool
    | name lead identifier => exact ih pool
    | constant lead text => exact ih pool
    | hole value =>
      refine List.IsPrefix.trans ?_ (ih (allocate pool value).2)
      unfold allocate
      split
      · exact List.prefix_rfl
      · exact List.prefix_append _ _

/-- The position that a pool gives to a value it holds. -/
def positionIn (pool : List π) (value : π) : Nat := pool.idxOf value + 1

theorem positionIn_cons_self (value : π) (pool : List π) : positionIn (value :: pool) value = 1 := by
  rw [positionIn, List.idxOf_cons_self]

theorem positionIn_cons_ne {first value : π} (h : first ≠ value) (pool : List π) :
    positionIn (first :: pool) value = positionIn pool value + 1 := by
  rw [positionIn, positionIn, List.idxOf_cons_ne _ h]

theorem positionIn_le {pool : List π} {value : π} (h : value ∈ pool) :
    positionIn pool value ≤ pool.length := List.idxOf_lt_length_of_mem h

theorem positionIn_pos (pool : List π) (value : π) : 1 ≤ positionIn pool value := Nat.succ_pos _

theorem allocate_position {pool final : List π} {value : π}
    (h : (allocate pool value).2 <+: final) :
    (allocate pool value).1 = positionIn final value := by
  obtain ⟨rest, rfl⟩ := h
  unfold allocate positionIn
  split
  next hmem => rw [List.idxOf_append_of_mem hmem]
  next hmem =>
    rw [List.append_assoc, List.idxOf_append_of_notMem hmem, List.singleton_append,
      List.idxOf_cons_self]

/-- An assembled text reads back as the items of its template, each value as its position in the
pool that the assembly leaves. -/
theorem read_lexemes {template : List (Piece π)} (hplain : ∀ p ∈ template, Undollared p)
    (hdelimited : Delimited (items template)) (pool : List π) :
    read none (lexemes template pool) = (items template).map
      (Item.map (positionIn (assemble template pool).2)) := by
  induction template generalizing pool with
  | nil => rfl
  | cons p ps ih =>
    have hp := hplain p (by simp)
    have hps := fun q hq => hplain q (List.mem_cons_of_mem p hq)
    cases p with
    | raw text =>
      rw [items_raw, Delimited, sites_fixedItems] at hdelimited
      rw [lexemes, read_fixed hp, ih hps hdelimited, items_raw, List.map_append, fixedItems_map,
        assemble_raw]
    | name lead identifier =>
      rw [items_name, Delimited, sites_fixedItems] at hdelimited
      rw [lexemes, read_fixed hp, read_identifier, ih hps hdelimited, items_name, List.map_append, fixedItems_map,
        List.map_cons, Item.map, assemble_name]
    | constant lead text =>
      rw [items_constant, Delimited, sites_fixedItems] at hdelimited
      rw [lexemes, read_fixed hp, read_constant, ih hps hdelimited, items_constant, List.map_append, fixedItems_map,
        List.map_cons, Item.map, assemble_constant]
    | hole value =>
      rw [items_hole, Delimited, sites, List.forall_mem_cons] at hdelimited
      have hrest := ih hps hdelimited.2 (allocate pool value).2
      have hposition := allocate_position (prefix_assemble_pool ps (allocate pool value).2)
      have htext : plainText ("$" ++ toString (allocate pool value).1) =
          .plain '$' :: (toString (allocate pool value).1).toList.map .plain := by
        rw [plainText, String.toList_append]
        rfl
      rw [lexemes, htext, List.cons_append, read, if_pos rfl,
        read_digits (Text.toString_isDigit _), Text.toList_toString,
        Nat.ofDigitChars_ten_toDigits, read_value _ hrest (by rw [suffix_map]; exact hdelimited.1),
        items_hole, List.map_cons, Item.map, hposition, assemble_hole]

end Placeholders

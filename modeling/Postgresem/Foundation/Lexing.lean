import Postgresem.Foundation.Template

/-! Reading a statement back with the SQL rules for delimited tokens: a double quote opens an
identifier, a single quote opens a constant, and inside a token its own quote is written twice. -/
namespace Lexing
open Template

inductive Lexeme where
  | plain (character : Char)
  | identifier (name : String)
  | constant (text : String)
  deriving DecidableEq

/-- Where the reader is; inside a token the characters read so far are kept in reverse. -/
inductive Mode where
  | outside
  | inIdentifier (read : List Char)
  | inConstant (read : List Char)

/-- `none` when the text ends inside a token. -/
def scan : Mode → List Char → Option (List Lexeme)
  | .outside, [] => some []
  | .outside, c :: cs =>
    if c = '"' then scan (.inIdentifier []) cs
    else if c = '\'' then scan (.inConstant []) cs
    else (scan .outside cs).map (.plain c :: ·)
  | .inIdentifier _, [] => none
  | .inIdentifier read, '"' :: '"' :: cs => scan (.inIdentifier ('"' :: read)) cs
  | .inIdentifier read, c :: cs =>
    if c = '"' then (scan .outside cs).map (.identifier (String.ofList read.reverse) :: ·)
    else scan (.inIdentifier (c :: read)) cs
  | .inConstant _, [] => none
  | .inConstant read, '\'' :: '\'' :: cs => scan (.inConstant ('\'' :: read)) cs
  | .inConstant read, c :: cs =>
    if c = '\'' then (scan .outside cs).map (.constant (String.ofList read.reverse) :: ·)
    else scan (.inConstant (c :: read)) cs

def lex (text : String) : Option (List Lexeme) := scan .outside text.toList

def plainText (text : String) : List Lexeme := text.toList.map .plain

def Unquoted (text : List Char) : Prop := '"' ∉ text ∧ '\'' ∉ text

instance (text : List Char) : Decidable (Unquoted text) :=
  inferInstanceAs (Decidable ('"' ∉ text ∧ '\'' ∉ text))

theorem scan_plain {text rest : List Char} (h : Unquoted text) :
    scan .outside (text ++ rest) = (scan .outside rest).map (text.map .plain ++ ·) := by
  induction text with
  | nil => simp
  | cons c cs ih =>
    have hc : c ≠ '"' ∧ c ≠ '\'' := by
      constructor <;> rintro rfl
      · exact h.1 (by simp)
      · exact h.2 (by simp)
    have hcs : Unquoted cs :=
      ⟨fun hm => h.1 (List.mem_cons_of_mem _ hm), fun hm => h.2 (List.mem_cons_of_mem _ hm)⟩
    simp only [List.cons_append, scan, hc.1, hc.2, if_false, ih hcs, Option.map_map,
      List.map_cons, Function.comp_def]

theorem scan_identifier_close {read rest : List Char} (h : rest.head? ≠ some '"') :
    scan (.inIdentifier read) ('"' :: rest) =
      (scan .outside rest).map (.identifier (String.ofList read.reverse) :: ·) := by
  rw [scan]
  · simp
  · rintro cs - rfl
    simp at h

theorem scan_identifier_other {read rest : List Char} {c : Char} (h : c ≠ '"') :
    scan (.inIdentifier read) (c :: rest) = scan (.inIdentifier (c :: read)) rest := by
  rw [scan]
  · simp [h]
  · rintro cs hc
    exact absurd hc h

theorem scan_constant_close {read rest : List Char} (h : rest.head? ≠ some '\'') :
    scan (.inConstant read) ('\'' :: rest) =
      (scan .outside rest).map (.constant (String.ofList read.reverse) :: ·) := by
  rw [scan]
  · simp
  · rintro cs - rfl
    simp at h

theorem scan_constant_other {read rest : List Char} {c : Char} (h : c ≠ '\'') :
    scan (.inConstant read) (c :: rest) = scan (.inConstant (c :: read)) rest := by
  rw [scan]
  · simp [h]
  · rintro cs hc
    exact absurd hc h

/-- A quoted identifier reads back as itself whatever it holds, as long as no quote follows. -/
theorem scan_quoted (identifier read rest : List Char) (h : rest.head? ≠ some '"') :
    scan (.inIdentifier read)
        ((identifier.flatMap fun c => if c = '"' then ['"', '"'] else [c]) ++ '"' :: rest) =
      (scan .outside rest).map
        (.identifier (String.ofList (read.reverse ++ identifier)) :: ·) := by
  induction identifier generalizing read with
  | nil => simpa using scan_identifier_close h
  | cons c cs ih =>
    by_cases hc : c = '"'
    · subst hc
      have hs := ih ('"' :: read)
      simp only [List.flatMap_cons, if_true, List.cons_append, List.nil_append, scan]
      rw [hs]
      simp
    · have hs := ih (c :: read)
      simp only [List.flatMap_cons, hc, if_false, List.cons_append, List.nil_append]
      rw [scan_identifier_other hc, hs]
      simp

theorem scan_constant (text read rest : List Char) (htext : '\'' ∉ text)
    (h : rest.head? ≠ some '\'') :
    scan (.inConstant read) (text ++ '\'' :: rest) =
      (scan .outside rest).map (.constant (String.ofList (read.reverse ++ text)) :: ·) := by
  induction text generalizing read with
  | nil => simpa using scan_constant_close h
  | cons c cs ih =>
    simp only [List.mem_cons, not_or] at htext
    have hs := ih (c :: read) htext.2
    rw [List.cons_append, scan_constant_other (Ne.symm htext.1), hs]
    simp

variable {π : Type} [DecidableEq π]

/-- Fixed text is free of quotes, and the text that leads in a token is not empty. -/
def CleanPiece : Piece π → Prop
  | .raw text => Unquoted text.toList
  | .name lead _ => Unquoted lead.toList ∧ lead ≠ ""
  | .constant lead text => Unquoted lead.toList ∧ lead ≠ "" ∧ '\'' ∉ text.toList
  | .hole _ => True

instance : (p : Piece π) → Decidable (CleanPiece p)
  | .raw text => inferInstanceAs (Decidable (Unquoted text.toList))
  | .name lead _ => inferInstanceAs (Decidable (Unquoted lead.toList ∧ lead ≠ ""))
  | .constant lead text =>
    inferInstanceAs (Decidable (Unquoted lead.toList ∧ lead ≠ "" ∧ '\'' ∉ text.toList))
  | .hole _ => inferInstanceAs (Decidable True)

theorem Unquoted.append {xs ys : List Char} (hx : Unquoted xs) (hy : Unquoted ys) :
    Unquoted (xs ++ ys) := by
  simp only [Unquoted, List.mem_append, not_or]
  exact ⟨⟨hx.1, hy.1⟩, ⟨hx.2, hy.2⟩⟩

theorem unquoted_toString (n : Nat) : Unquoted (toString n).toList :=
  ⟨Text.notMem_toString (by decide) n, Text.notMem_toString (by decide) n⟩

def Clean (template : List (Piece π)) : Prop := ∀ p ∈ template, CleanPiece p

section Clean
omit [DecidableEq π]

@[simp] theorem clean_nil : Clean ([] : List (Piece π)) := by
  intro p hp
  cases hp

@[simp] theorem clean_cons {p : Piece π} {ps : List (Piece π)} :
    Clean (p :: ps) ↔ CleanPiece p ∧ Clean ps := List.forall_mem_cons

@[simp] theorem clean_append {xs ys : List (Piece π)} :
    Clean (xs ++ ys) ↔ Clean xs ∧ Clean ys := List.forall_mem_append

theorem clean_flatten {templates : List (List (Piece π))} (h : ∀ t ∈ templates, Clean t) :
    Clean templates.flatten := by
  intro p hp
  obtain ⟨t, ht, hm⟩ := List.mem_flatten.mp hp
  exact h t ht p hm

theorem clean_joinWith {separator : String} (hs : Unquoted separator.toList)
    {templates : List (List (Piece π))} (h : ∀ t ∈ templates, Clean t) :
    Clean (joinWith separator templates) := by
  induction templates with
  | nil => simp [joinWith]
  | cons template rest ih =>
    cases rest with
    | nil => exact h template (by simp)
    | cons next rest =>
      simp only [joinWith, clean_append, clean_cons]
      exact ⟨h template (by simp), hs, ih fun t ht => h t (by simp [ht])⟩

end Clean

/-- The tokens a template stands for: identifiers and constants whole, the rest verbatim. -/
def lexemes : List (Piece π) → List π → List Lexeme
  | [], _ => []
  | .raw text :: rest, pool => plainText text ++ lexemes rest pool
  | .name lead identifier :: rest, pool =>
    plainText lead ++ .identifier identifier :: lexemes rest pool
  | .constant lead text :: rest, pool =>
    plainText lead ++ .constant text :: lexemes rest pool
  | .hole value :: rest, pool =>
    plainText ("$" ++ toString (allocate pool value).1) ++ lexemes rest (allocate pool value).2

def identifiers : List Lexeme → List String
  | [] => []
  | .identifier name :: rest => name :: identifiers rest
  | .plain _ :: rest | .constant _ :: rest => identifiers rest

theorem identifiers_plainText (text : String) (rest : List Lexeme) :
    identifiers (plainText text ++ rest) = identifiers rest := by
  unfold plainText
  induction text.toList with
  | nil => rfl
  | cons c cs ih => simpa [identifiers] using ih

theorem identifiers_lexemes (template : List (Piece π)) (pool : List π) :
    identifiers (lexemes template pool) = names template := by
  induction template generalizing pool with
  | nil => rfl
  | cons p ps ih => cases p <;> simp [lexemes, identifiers_plainText, identifiers, ih]

theorem head?_append_ne {c : Char} {xs ys : List Char} (hx : c ∉ xs) (hy : ys.head? ≠ some c) :
    (xs ++ ys).head? ≠ some c := by
  cases xs with
  | nil => simpa using hy
  | cons x xs =>
    intro h
    simp only [List.cons_append, List.head?_cons, Option.some.injEq] at h
    exact hx (by simp [h])

theorem assemble_head?_ne {template : List (Piece π)} (hclean : Clean template)
    (pool : List π) : (assemble template pool).1.toList.head? ≠ some '"' ∧
      (assemble template pool).1.toList.head? ≠ some '\'' := by
  induction template generalizing pool with
  | nil => simp
  | cons p ps ih =>
    have hp := hclean p (by simp)
    have ihp := ih (clean_cons.mp hclean).2
    cases p with
    | raw text =>
      simp only [assemble_raw, String.toList_append]
      exact ⟨head?_append_ne hp.1 (ihp pool).1, head?_append_ne hp.2 (ihp pool).2⟩
    | name lead identifier =>
      obtain ⟨c, cs, hc⟩ := List.exists_cons_of_ne_nil
        (fun h => hp.2 (String.toList_eq_nil_iff.mp h) : lead.toList ≠ [])
      have hu := hp.1
      simp only [hc, Unquoted, List.mem_cons, not_or] at hu
      simp only [assemble_name, String.toList_append, hc, List.cons_append, List.head?_cons, ne_eq,
        Option.some.injEq]
      exact ⟨fun h => hu.1.1 h.symm, fun h => hu.2.1 h.symm⟩
    | constant lead text =>
      obtain ⟨c, cs, hc⟩ := List.exists_cons_of_ne_nil
        (fun h => hp.2.1 (String.toList_eq_nil_iff.mp h) : lead.toList ≠ [])
      have hu := hp.1
      simp only [hc, Unquoted, List.mem_cons, not_or] at hu
      simp only [assemble_constant, String.toList_append, hc, List.cons_append, List.head?_cons,
        ne_eq, Option.some.injEq]
      exact ⟨fun h => hu.1.1 h.symm, fun h => hu.2.1 h.symm⟩
    | hole value => simp

theorem unquoted_position (n : Nat) : Unquoted ("$" ++ toString n).toList := by
  rw [String.toList_append]
  exact Unquoted.append (by decide) (unquoted_toString n)

/-- A clean template reads back as its own tokens: no identifier ends early or starts another
token, whatever characters it holds. -/
theorem lex_assemble {template : List (Piece π)} (hclean : Clean template)
    (pool : List π) : lex (assemble template pool).1 = some (lexemes template pool) := by
  unfold lex
  induction template generalizing pool with
  | nil => simp [scan, lexemes]
  | cons p ps ih =>
    have hp := hclean p (by simp)
    have hps : Clean ps := (clean_cons.mp hclean).2
    have hrest := assemble_head?_ne hps
    cases p with
    | raw text =>
      simp only [assemble_raw, String.toList_append, scan_plain hp, ih hps, lexemes, plainText,
        Option.map_some]
    | name lead identifier =>
      have hq := scan_quoted identifier.toList [] (assemble ps pool).1.toList (hrest pool).1
      simp only [assemble_name, quoted, String.toList_append, Text.toList_replaceChar,
        List.append_assoc, scan_plain hp.1]
      have hopen : "\"".toList = ['"'] := by decide
      have hdouble : "\"\"".toList = ['"', '"'] := by decide
      simp only [hopen, hdouble, List.cons_append, List.nil_append, scan, if_true]
      rw [hq, ih hps]
      simp [lexemes, plainText]
    | constant lead text =>
      have hq := scan_constant text.toList [] (assemble ps pool).1.toList hp.2.2 (hrest pool).2
      have hopen : "'".toList = ['\''] := by decide
      simp only [assemble_constant, String.toList_append, List.append_assoc, scan_plain hp.1,
        hopen, List.cons_append, List.nil_append]
      rw [scan]
      simp only [Char.reduceEq, if_false, if_true]
      rw [hq, ih hps]
      simp [lexemes, plainText]
    | hole value =>
      rw [assemble_hole, String.toList_append, scan_plain (unquoted_position _), ih hps]
      simp [lexemes, plainText]

/-- A list of quoted identifiers, opened by a bracket. -/
def identifierList (separator : String) : List String → List (Piece Unit)
  | [] => [.raw "("]
  | identifier :: rest => .name "(" identifier :: rest.map (.name separator)

theorem assemble_identifierList (separator : String) (identifiers : List String) :
    (assemble (identifierList separator identifiers) []).1 =
      "(" ++ separator.intercalate (identifiers.map quoted) := by
  have hrest : ∀ rest : List String, ∀ first : String,
      first ++ (assemble (rest.map (Piece.name (π := Unit) separator)) []).1 =
        separator.intercalate (first :: rest.map quoted) := by
    intro rest
    induction rest with
    | nil => simp
    | cons next rest ih =>
      intro first
      rw [List.map_cons, List.map_cons, assemble_name, String.intercalate_cons_cons, ← ih]
      simp only [String.append_assoc]
  cases identifiers with
  | nil => simp [identifierList]
  | cons identifier rest =>
    rw [identifierList, assemble_name, List.map_cons, ← hrest]
    simp only [String.append_assoc]

theorem names_identifierList (separator : String) (identifiers : List String) :
    names (identifierList separator identifiers) = identifiers := by
  have hrest : ∀ rest : List String,
      names (rest.map (Piece.name (π := Unit) separator)) = rest := by
    intro rest
    induction rest with
    | nil => rfl
    | cons next rest ih => rw [List.map_cons, names_name, ih]
  cases identifiers with
  | nil => rfl
  | cons identifier rest => rw [identifierList, names_name, hrest]

theorem clean_identifierList {separator : String} (hs : Unquoted separator.toList)
    (hne : separator ≠ "") (identifiers : List String) :
    Clean (identifierList separator identifiers) := by
  cases identifiers with
  | nil => exact clean_cons.mpr ⟨by decide, clean_nil⟩
  | cons identifier rest =>
    refine clean_cons.mpr ⟨⟨by decide, by decide⟩, ?_⟩
    intro piece hp
    obtain ⟨name, -, rfl⟩ := List.mem_map.mp hp
    exact ⟨hs, hne⟩

/-- Quoted identifiers in a list are told apart, whatever characters they hold. -/
theorem intercalate_quoted_injective {separator : String} (hs : Unquoted separator.toList)
    (hne : separator ≠ "") {identifiers others : List String}
    (h : separator.intercalate (identifiers.map quoted) =
      separator.intercalate (others.map quoted)) : identifiers = others := by
  have hclean := clean_identifierList hs hne
  have htext : (assemble (identifierList separator identifiers) []).1 =
      (assemble (identifierList separator others) []).1 := by
    rw [assemble_identifierList, assemble_identifierList, h]
  have hlex := lex_assemble (hclean identifiers) []
  rw [htext, lex_assemble (hclean others) []] at hlex
  have hnames := congrArg Lexing.identifiers (Option.some.inj hlex)
  rw [identifiers_lexemes, identifiers_lexemes, names_identifierList, names_identifierList] at hnames
  exact hnames.symm

end Lexing

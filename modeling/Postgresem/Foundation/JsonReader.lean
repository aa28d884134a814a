import Postgresem.Foundation.Json
import Postgresem.Foundation.Text

/-! Reading JSON text. The value read keeps every member of an object, repeated names included,
and every number as it is written. -/
namespace Json

def isSpace (character : Char) : Bool :=
  character == ' ' || character == '\n' || character == '\t' || character == '\r'

def skipSpace (text : List Char) : List Char := text.dropWhile isSpace

/-! ## Strings -/

def hexValue (character : Char) : Option Nat :=
  if '0' ≤ character ∧ character ≤ '9' then some (character.toNat - 48)
  else if 'a' ≤ character ∧ character ≤ 'f' then some (character.toNat - 87)
  else if 'A' ≤ character ∧ character ≤ 'F' then some (character.toNat - 55)
  else none

/-- Four hexadecimal digits: one UTF-16 code unit. -/
def readUnit : List Char → Option (Nat × List Char)
  | a :: b :: c :: d :: rest => do
      let a ← hexValue a
      let b ← hexValue b
      let c ← hexValue c
      let d ← hexValue d
      pure (((a * 16 + b) * 16 + c) * 16 + d, rest)
  | _ => none

/-- The character after `\u`: a leading surrogate needs its partner, a trailing one stands alone
and is an error. -/
def readUnicode (text : List Char) : Option (Char × List Char) := do
  let (unit, rest) ← readUnit text
  if 0xD800 ≤ unit ∧ unit < 0xDC00 then
    match rest with
    | '\\' :: 'u' :: rest => do
        let (partner, rest) ← readUnit rest
        if 0xDC00 ≤ partner ∧ partner < 0xE000 then
          pure (Char.ofNat (0x10000 + (unit - 0xD800) * 0x400 + (partner - 0xDC00)), rest)
        else none
    | _ => none
  else if 0xDC00 ≤ unit ∧ unit < 0xE000 then none
  else pure (Char.ofNat unit, rest)

def unescape (character : Char) : Option Char :=
  if character = '"' ∨ character = '\\' ∨ character = '/' then some character
  else if character = 'b' then some (Char.ofNat 8)
  else if character = 'f' then some (Char.ofNat 12)
  else if character = 'n' then some '\n'
  else if character = 'r' then some '\r'
  else if character = 't' then some '\t'
  else none

def readEscape : List Char → Option (Char × List Char)
  | [] => none
  | character :: rest =>
    if character = 'u' then readUnicode rest
    else (unescape character).map fun character => (character, rest)

/-- The characters up to the closing quote. -/
def readChars : Nat → List Char → Option (List Char × List Char)
  | 0, _ => none
  | _ + 1, [] => none
  | fuel + 1, character :: rest =>
    if character = '"' then some ([], rest)
    else if character = '\\' then do
      let (character, rest) ← readEscape rest
      let (characters, rest) ← readChars fuel rest
      pure (character :: characters, rest)
    else if character.toNat < 32 then none
    else do
      let (characters, rest) ← readChars fuel rest
      pure (character :: characters, rest)

def readString (text : List Char) : Option (String × List Char) :=
  (readChars text.length text).map fun (characters, rest) => (String.ofList characters, rest)

theorem hexValue_hexDigit : ∀ nibble < 16, hexValue (hexDigit nibble) = some nibble := by decide

/-- What the serializer writes for a character is read back, whatever follows. -/
theorem readChars_escapeChar (fuel : Nat) (character : Char) (rest : List Char) :
    readChars (fuel + 1) ((escapeChar character).toList ++ rest) =
      (readChars fuel rest).map fun (characters, rest) => (character :: characters, rest) := by
  have hmap : ∀ x : Option (List Char × List Char), ∀ c : Char,
      (x.bind fun (characters, rest) => some (c :: characters, rest)) =
        x.map fun (characters, rest) => (c :: characters, rest) := by
    intro x c
    cases x <;> rfl
  have hname : ∀ n : Nat, character.toNat = n → character = Char.ofNat n := by
    intro n hn
    rw [← hn, Char.ofNat_toNat]
  unfold escapeChar
  split_ifs with hquote hslash hline hreturn htab hback hfeed hcontrol
  · subst hquote
    exact hmap (readChars fuel rest) '"'
  · subst hslash
    exact hmap (readChars fuel rest) '\\'
  · subst hline
    exact hmap (readChars fuel rest) '\n'
  · subst hreturn
    exact hmap (readChars fuel rest) '\r'
  · subst htab
    exact hmap (readChars fuel rest) '\t'
  · rw [hname 8 hback]
    exact hmap (readChars fuel rest) (Char.ofNat 8)
  · rw [hname 12 hfeed]
    exact hmap (readChars fuel rest) (Char.ofNat 12)
  · have hread : readEscape ('u' :: '0' :: '0' :: hexDigit (character.toNat / 16)
        :: hexDigit (character.toNat % 16) :: rest) = some (character, rest) := by
      have hlow := hexValue_hexDigit (character.toNat % 16) (by omega)
      have hhigh := hexValue_hexDigit (character.toNat / 16) (by omega)
      have hzero : hexValue '0' = some 0 := by decide
      have hunit : ((0 * 16 + 0) * 16 + character.toNat / 16) * 16 + character.toNat % 16 =
          character.toNat := by omega
      rw [readEscape, if_pos rfl, readUnicode, readUnit, hzero, hhigh, hlow]
      simp only [Option.pure_def, Option.bind_eq_bind, Option.bind_some, hunit]
      rw [if_neg (by omega), if_neg (by omega), Char.ofNat_toNat]
    have htext : ("\\u00" ++ String.ofList [hexDigit (character.toNat / 16),
        hexDigit (character.toNat % 16)]).toList ++ rest = '\\' :: 'u' :: '0' :: '0'
          :: hexDigit (character.toNat / 16) :: hexDigit (character.toNat % 16) :: rest := by
      simp
    rw [htext, readChars, if_neg (by decide), if_pos rfl, hread]
    exact hmap (readChars fuel rest) character
  · rw [String.toList_ofList, List.singleton_append, readChars, if_neg hquote, if_neg hslash,
      if_neg hcontrol]
    exact hmap (readChars fuel rest) character

theorem readChars_escaped (characters rest : List Char) (fuel : Nat)
    (hfuel : characters.length < fuel) :
    readChars fuel ((characters.flatMap fun c => (escapeChar c).toList) ++ '"' :: rest) =
      some (characters, rest) := by
  induction characters generalizing fuel with
  | nil =>
    obtain ⟨fuel, rfl⟩ : ∃ n, fuel = n + 1 := ⟨fuel - 1, by simp only [List.length_nil] at hfuel; omega⟩
    rfl
  | cons character characters ih =>
    simp only [List.length_cons] at hfuel
    obtain ⟨fuel, rfl⟩ : ∃ n, fuel = n + 1 := ⟨fuel - 1, by omega⟩
    rw [List.flatMap_cons, List.append_assoc, readChars_escapeChar, ih fuel (by omega)]
    rfl

theorem toList_string (value : String) :
    (string value).toList =
      '"' :: ((value.toList.flatMap fun c => (escapeChar c).toList) ++ ['"']) := by
  rw [string, String.toList_append, String.toList_append, String.toList_join, List.flatMap_map]
  simp

theorem escapeChar_length (character : Char) : 1 ≤ (escapeChar character).toList.length := by
  unfold escapeChar
  split_ifs <;> simp

theorem length_le_escaped (characters : List Char) :
    characters.length ≤ (characters.flatMap fun c => (escapeChar c).toList).length := by
  induction characters with
  | nil => simp
  | cons character characters ih =>
    have hone := escapeChar_length character
    rw [List.flatMap_cons, List.length_append, List.length_cons]
    omega

/-- A written string is read back, whatever follows. -/
theorem readString_string (value : String) (rest : List Char) :
    ∃ text, (string value).toList ++ rest = '"' :: text ∧
      readString text = some (value, rest) := by
  refine ⟨(value.toList.flatMap fun c => (escapeChar c).toList) ++ '"' :: rest, ?_, ?_⟩
  · rw [toList_string, List.cons_append, List.append_assoc, List.singleton_append]
  · have hlength := length_le_escaped value.toList
    rw [readString, readChars_escaped value.toList rest _ (by
      rw [List.length_append, List.length_cons]; omega)]
    simp

/-! ## Numbers -/

def readDigits (text : List Char) : List Char × List Char :=
  (text.takeWhile Char.isDigit, text.dropWhile Char.isDigit)

/-- One digit or more. -/
def readSomeDigits (text : List Char) : Option (List Char × List Char) :=
  if (readDigits text).1 = [] then none else some (readDigits text)

/-- An integer part: no leading zero before another digit. -/
def readInteger (text : List Char) : Option (List Char × List Char) :=
  match (readDigits text).1 with
  | [] => none
  | '0' :: _ :: _ => none
  | _ => some (readDigits text)

def readFraction : List Char → Option (List Char × List Char)
  | '.' :: rest => (readSomeDigits rest).map fun (digits, rest) => ('.' :: digits, rest)
  | text => some ([], text)

def readSign : List Char → List Char × List Char
  | '+' :: rest => (['+'], rest)
  | '-' :: rest => (['-'], rest)
  | text => ([], text)

def readExponent : List Char → Option (List Char × List Char)
  | 'e' :: rest => exponentAfter 'e' rest
  | 'E' :: rest => exponentAfter 'E' rest
  | text => some ([], text)
where
  exponentAfter (mark : Char) (rest : List Char) : Option (List Char × List Char) :=
    (readSomeDigits (readSign rest).2).map fun (digits, rest') =>
      (mark :: (readSign rest).1 ++ digits, rest')

def readMinus : List Char → List Char × List Char
  | '-' :: rest => (['-'], rest)
  | text => ([], text)

/-- The text of a number and what follows it. -/
def readNumber (text : List Char) : Option (List Char × List Char) := do
  let (integer, rest) ← readInteger (readMinus text).2
  let (fraction, rest) ← readFraction rest
  let (exponent, rest) ← readExponent rest
  pure ((readMinus text).1 ++ integer ++ fraction ++ exponent, rest)

/-- A run of digits, one at least. -/
structure Digits (digits : List Char) : Prop where
  ne_nil : digits ≠ []
  isDigit : ∀ c ∈ digits, c.isDigit = true

/-- Nothing that would go on with a number. -/
def Ends (rest : List Char) : Prop :=
  ∀ c ∈ rest.head?, c.isDigit = false ∧ c ≠ '.' ∧ c ≠ 'e' ∧ c ≠ 'E'

def NoDigit (rest : List Char) : Prop := ∀ c ∈ rest.head?, c.isDigit = false

def IsFraction (fraction : List Char) : Prop :=
  fraction = [] ∨ ∃ digits, Digits digits ∧ fraction = '.' :: digits

def IsExponent (exponent : List Char) : Prop :=
  exponent = [] ∨ ∃ mark sign digits, (mark = 'e' ∨ mark = 'E') ∧
    (sign = [] ∨ sign = ['+'] ∨ sign = ['-']) ∧ Digits digits ∧
    exponent = mark :: sign ++ digits

structure IsInteger (integer : List Char) : Prop extends Digits integer where
  no_leading_zero : ∀ c cs, integer ≠ '0' :: c :: cs

/-- The grammar of a number's text. -/
structure IsNumber (text minus integer fraction exponent : List Char) : Prop where
  parts : text = minus ++ integer ++ fraction ++ exponent
  minus : minus = [] ∨ minus = ['-']
  integer : IsInteger integer
  fraction : IsFraction fraction
  exponent : IsExponent exponent

theorem readDigits_append {digits rest : List Char} (hdigits : ∀ c ∈ digits, c.isDigit = true)
    (hrest : NoDigit rest) : readDigits (digits ++ rest) = (digits, rest) := by
  induction digits with
  | nil =>
    cases rest with
    | nil => rfl
    | cons c rest =>
      have hc : c.isDigit = false := hrest c rfl
      simp [readDigits, hc]
  | cons c digits ih =>
    have hc : c.isDigit = true := hdigits c List.mem_cons_self
    have htail := ih fun d hd => hdigits d (List.mem_cons_of_mem c hd)
    simp only [readDigits, Prod.mk.injEq] at htail
    simp [readDigits, hc, htail.1, htail.2]

theorem readDigits_isDigit (text : List Char) : ∀ c ∈ (readDigits text).1, c.isDigit = true := by
  intro c hc
  exact List.all_eq_true.mp (List.all_takeWhile) c hc

theorem readDigits_parts (text : List Char) : (readDigits text).1 ++ (readDigits text).2 = text :=
  List.takeWhile_append_dropWhile

theorem readSomeDigits_eq_some {text digits rest : List Char}
    (h : readSomeDigits text = some (digits, rest)) : Digits digits ∧ text = digits ++ rest := by
  rw [readSomeDigits] at h
  by_cases hnil : (readDigits text).1 = []
  · rw [if_pos hnil] at h
    cases h
  · rw [if_neg hnil, Option.some.injEq] at h
    have hparts := readDigits_parts text
    have hall := readDigits_isDigit text
    rw [h] at hnil hparts hall
    exact ⟨⟨hnil, hall⟩, hparts.symm⟩

theorem readSomeDigits_append {digits rest : List Char} (hdigits : Digits digits)
    (hrest : NoDigit rest) : readSomeDigits (digits ++ rest) = some (digits, rest) := by
  rw [readSomeDigits, readDigits_append hdigits.isDigit hrest, if_neg hdigits.ne_nil]

theorem readInteger_eq_some {text integer rest : List Char}
    (h : readInteger text = some (integer, rest)) :
    IsInteger integer ∧ text = integer ++ rest := by
  have hparts := readDigits_parts text
  have hall := readDigits_isDigit text
  unfold readInteger at h
  split at h
  · cases h
  · cases h
  · next hnil hzero =>
    rw [Option.some.injEq] at h
    rw [h] at hparts hall hnil hzero
    exact ⟨⟨⟨hnil, hall⟩, hzero⟩, hparts.symm⟩

theorem readInteger_append {integer rest : List Char} (hinteger : IsInteger integer)
    (hrest : NoDigit rest) : readInteger (integer ++ rest) = some (integer, rest) := by
  unfold readInteger
  rw [readDigits_append hinteger.isDigit hrest]
  split
  · next hnil => exact absurd hnil hinteger.ne_nil
  · next hzero => exact absurd hzero (hinteger.no_leading_zero _ _)
  · rfl

theorem readFraction_eq_some {text fraction rest : List Char}
    (h : readFraction text = some (fraction, rest)) :
    IsFraction fraction ∧ text = fraction ++ rest := by
  unfold readFraction at h
  split at h
  · next tail =>
    obtain ⟨⟨digits, rest'⟩, hdigits, hpair⟩ := Option.map_eq_some_iff.mp h
    obtain ⟨hsome, rfl⟩ := readSomeDigits_eq_some hdigits
    simp only [Prod.mk.injEq] at hpair
    obtain ⟨rfl, rfl⟩ := hpair
    exact ⟨.inr ⟨digits, hsome, rfl⟩, rfl⟩
  · simp only [Option.some.injEq, Prod.mk.injEq] at h
    obtain ⟨rfl, rfl⟩ := h
    exact ⟨.inl rfl, rfl⟩

theorem readFraction_append {fraction rest : List Char} (hfraction : IsFraction fraction)
    (hrest : NoDigit rest) (hpoint : ∀ c ∈ rest.head?, c ≠ '.') :
    readFraction (fraction ++ rest) = some (fraction, rest) := by
  obtain rfl | ⟨digits, hdigits, rfl⟩ := hfraction
  · rw [List.nil_append]
    unfold readFraction
    split
    · next tail => exact absurd rfl (hpoint '.' rfl)
    · rfl
  · rw [List.cons_append, readFraction, readSomeDigits_append hdigits hrest]
    rfl

theorem readSign_parts (text : List Char) :
    ((readSign text).1 = [] ∨ (readSign text).1 = ['+'] ∨ (readSign text).1 = ['-']) ∧
      text = (readSign text).1 ++ (readSign text).2 := by
  unfold readSign
  split
  · exact ⟨.inr (.inl rfl), rfl⟩
  · exact ⟨.inr (.inr rfl), rfl⟩
  · exact ⟨.inl rfl, rfl⟩

theorem readSign_append {sign digits rest : List Char}
    (hsign : sign = [] ∨ sign = ['+'] ∨ sign = ['-']) (hdigits : Digits digits) :
    readSign (sign ++ (digits ++ rest)) = (sign, digits ++ rest) := by
  obtain rfl | rfl | rfl := hsign
  · cases digits with
    | nil => exact absurd rfl hdigits.ne_nil
    | cons c cs =>
      have hc : c.isDigit = true := hdigits.isDigit c List.mem_cons_self
      rw [List.nil_append, List.cons_append]
      unfold readSign
      split
      · next hplus =>
        rw [(List.cons.inj hplus).1] at hc
        cases hc
      · next hminus =>
        rw [(List.cons.inj hminus).1] at hc
        cases hc
      · rfl
  · rfl
  · rfl

theorem exponentAfter_eq_some {mark : Char} (hmark : mark = 'e' ∨ mark = 'E')
    {text exponent rest : List Char}
    (h : readExponent.exponentAfter mark text = some (exponent, rest)) :
    IsExponent exponent ∧ mark :: text = exponent ++ rest := by
  obtain ⟨⟨digits, rest'⟩, hdigits, hpair⟩ := Option.map_eq_some_iff.mp h
  obtain ⟨hsign, hparts⟩ := readSign_parts text
  obtain ⟨hsome, htail⟩ := readSomeDigits_eq_some hdigits
  simp only [Prod.mk.injEq] at hpair
  obtain ⟨rfl, rfl⟩ := hpair
  refine ⟨.inr ⟨mark, (readSign text).1, digits, hmark, hsign, hsome, rfl⟩, ?_⟩
  rw [List.cons_append, List.cons_append, List.append_assoc, ← htail, ← hparts]

theorem readExponent_eq_some {text exponent rest : List Char}
    (h : readExponent text = some (exponent, rest)) :
    IsExponent exponent ∧ text = exponent ++ rest := by
  unfold readExponent at h
  split at h
  · exact exponentAfter_eq_some (.inl rfl) h
  · exact exponentAfter_eq_some (.inr rfl) h
  · simp only [Option.some.injEq, Prod.mk.injEq] at h
    obtain ⟨rfl, rfl⟩ := h
    exact ⟨.inl rfl, rfl⟩

theorem readExponent_append {exponent rest : List Char} (hexponent : IsExponent exponent)
    (hrest : Ends rest) : readExponent (exponent ++ rest) = some (exponent, rest) := by
  obtain rfl | ⟨mark, sign, digits, hmark, hsign, hdigits, rfl⟩ := hexponent
  · rw [List.nil_append]
    unfold readExponent
    split
    · next tail => exact absurd rfl (hrest 'e' rfl).2.2.1
    · next tail => exact absurd rfl (hrest 'E' rfl).2.2.2
    · rfl
  · have hafter : readExponent.exponentAfter mark (sign ++ (digits ++ rest)) =
        some (mark :: sign ++ digits, rest) := by
      rw [readExponent.exponentAfter, readSign_append hsign hdigits,
        readSomeDigits_append hdigits fun c hc => (hrest c hc).1]
      rfl
    rw [List.cons_append, List.cons_append, List.append_assoc]
    obtain rfl | rfl := hmark
    · exact hafter
    · exact hafter

theorem readMinus_parts (text : List Char) :
    ((readMinus text).1 = [] ∨ (readMinus text).1 = ['-']) ∧
      text = (readMinus text).1 ++ (readMinus text).2 := by
  unfold readMinus
  split
  · exact ⟨.inr rfl, rfl⟩
  · exact ⟨.inl rfl, rfl⟩

theorem readMinus_append {minus integer rest : List Char} (hminus : minus = [] ∨ minus = ['-'])
    (hinteger : Digits integer) :
    readMinus (minus ++ (integer ++ rest)) = (minus, integer ++ rest) := by
  obtain rfl | rfl := hminus
  · cases integer with
    | nil => exact absurd rfl hinteger.ne_nil
    | cons c cs =>
      have hc : c.isDigit = true := hinteger.isDigit c List.mem_cons_self
      rw [List.nil_append, List.cons_append]
      unfold readMinus
      split
      · next hdash =>
        rw [(List.cons.inj hdash).1] at hc
        cases hc
      · rfl
  · rfl

/-- What is read as a number has the grammar of a number. -/
theorem readNumber_eq_some {text number rest : List Char}
    (h : readNumber text = some (number, rest)) :
    (∃ minus integer fraction exponent, IsNumber number minus integer fraction exponent) ∧
      text = number ++ rest := by
  simp only [readNumber, Option.pure_def, Option.bind_eq_bind, Option.bind_eq_some_iff,
    Prod.exists, Option.some.injEq, Prod.mk.injEq] at h
  obtain ⟨integer, rest₁, hint, fraction, rest₂, hfrac, exponent, rest₃, hexp, rfl, rfl⟩ := h
  obtain ⟨hminus, htext⟩ := readMinus_parts text
  obtain ⟨hinteger, hrest⟩ := readInteger_eq_some hint
  obtain ⟨hfraction, hrest₁⟩ := readFraction_eq_some hfrac
  obtain ⟨hexponent, hrest₂⟩ := readExponent_eq_some hexp
  refine ⟨⟨_, integer, fraction, exponent, rfl, hminus, hinteger, hfraction, hexponent⟩, ?_⟩
  rw [List.append_assoc, List.append_assoc, List.append_assoc, ← hrest₂, ← hrest₁, ← hrest,
    ← htext]

theorem noDigit_exponent {exponent rest : List Char} (hexponent : IsExponent exponent)
    (hrest : Ends rest) : NoDigit (exponent ++ rest) ∧ ∀ c ∈ (exponent ++ rest).head?, c ≠ '.' := by
  obtain rfl | ⟨mark, sign, digits, hmark, -, -, rfl⟩ := hexponent
  · exact ⟨fun c hc => (hrest c hc).1, fun c hc => (hrest c hc).2.1⟩
  · constructor
    · intro c hc
      obtain rfl : mark = c := by simpa using hc
      obtain rfl | rfl := hmark <;> rfl
    · intro c hc
      obtain rfl : mark = c := by simpa using hc
      obtain rfl | rfl := hmark <;> decide

theorem noDigit_fraction {fraction rest : List Char} (hfraction : IsFraction fraction)
    (hrest : NoDigit rest) : NoDigit (fraction ++ rest) := by
  obtain rfl | ⟨digits, -, rfl⟩ := hfraction
  · exact hrest
  · intro c hc
    obtain rfl : '.' = c := by simpa using hc
    rfl

/-- A number's text is read as a whole when nothing goes on with it. -/
theorem IsNumber.read {text minus integer fraction exponent rest : List Char}
    (h : IsNumber text minus integer fraction exponent) (hrest : Ends rest) :
    readNumber (text ++ rest) = some (text, rest) := by
  obtain ⟨hdigit, hpoint⟩ := noDigit_exponent h.exponent hrest
  have hsplit : text ++ rest = minus ++ (integer ++ (fraction ++ (exponent ++ rest))) := by
    rw [h.parts, List.append_assoc, List.append_assoc, List.append_assoc]
  have hinteger := readInteger_append h.integer (noDigit_fraction h.fraction hdigit)
  rw [readNumber, hsplit, readMinus_append h.minus h.integer.toDigits, hinteger]
  simp only [Option.pure_def, Option.bind_eq_bind, Option.bind_some,
    readFraction_append h.fraction hdigit hpoint, readExponent_append h.exponent hrest]
  rw [h.parts]

theorem isInteger_toString (n : Nat) : IsInteger (toString n).toList := by
  rw [Text.toList_toString]
  exact ⟨⟨Nat.toDigits_ne_nil, fun c hc => Nat.isDigit_of_mem_toDigits (by decide) (by decide) hc⟩,
    Text.toDigits_no_leading_zero n⟩

theorem isNumber_natural (n : Nat) : ∃ minus integer fraction exponent,
    IsNumber (toString n).toList minus integer fraction exponent :=
  ⟨[], (toString n).toList, [], [], by simp, .inl rfl, isInteger_toString n, .inl rfl, .inl rfl⟩

theorem isNumber_integer : ∀ n : Int, ∃ minus integer fraction exponent,
    IsNumber (toString n).toList minus integer fraction exponent
  | .ofNat n => isNumber_natural n
  | .negSucc n => by
    refine ⟨['-'], (toString (n + 1)).toList, [], [], ?_, .inr rfl, isInteger_toString (n + 1),
      .inl rfl, .inl rfl⟩
    rw [Text.toString_negSucc]
    simp

/-! ## Values -/

def readWord (word : String) (value : Value) (text : List Char) : Option (Value × List Char) :=
  if word.toList.isPrefixOf text then some (value, text.drop word.toList.length) else none

mutual

/-- Reads one value with `depth` levels of nesting left. -/
def readValue : Nat → Nat → List Char → Option (Value × List Char)
  | 0, _, _ => none
  | fuel + 1, depth, text =>
    match skipSpace text with
    | [] => none
    | first :: rest =>
      if first = '-' ∨ first.isDigit = true then
        (readNumber (first :: rest)).map fun (number, rest) =>
          (.number (String.ofList number), rest)
      else if first = '"' then
        (readString rest).map fun (value, rest) => (.string value, rest)
      else if first = '[' then
        match depth, skipSpace rest with
        | 0, _ => none
        | _ + 1, ']' :: rest => some (.array [], rest)
        | depth + 1, rest =>
          (readItems fuel depth rest).map fun (items, rest) => (.array items, rest)
      else if first = '\x7b' then
        match depth, skipSpace rest with
        | 0, _ => none
        | _ + 1, '\x7d' :: rest => some (.object [], rest)
        | depth + 1, rest =>
          (readMembers fuel depth rest).map fun (members, rest) => (.object members, rest)
      else if first = 'n' then readWord "null" .null (first :: rest)
      else if first = 't' then readWord "true" (.boolean true) (first :: rest)
      else if first = 'f' then readWord "false" (.boolean false) (first :: rest)
      else none

/-- The items up to the closing bracket, one at least. -/
def readItems : Nat → Nat → List Char → Option (List Value × List Char)
  | 0, _, _ => none
  | fuel + 1, depth, text => do
    let (item, rest) ← readValue fuel depth text
    match skipSpace rest with
    | ',' :: rest =>
      (readItems fuel depth rest).map fun (items, rest) => (item :: items, rest)
    | ']' :: rest => pure ([item], rest)
    | _ => none

/-- The members up to the closing brace, one at least. -/
def readMembers : Nat → Nat → List Char → Option (List (String × Value) × List Char)
  | 0, _, _ => none
  | fuel + 1, depth, text =>
    match skipSpace text with
    | '"' :: rest => do
      let (name, rest) ← readString rest
      match skipSpace rest with
      | ':' :: rest => do
        let (value, rest) ← readValue fuel depth rest
        match skipSpace rest with
        | ',' :: rest =>
          (readMembers fuel depth rest).map fun (members, rest) => ((name, value) :: members, rest)
        | '\x7d' :: rest => pure ([(name, value)], rest)
        | _ => none
      | _ => none
    | _ => none

end

/-- The levels of nesting that are read. -/
def maxDepth : Nat := 127

/-- A whole text: one value with white space around it. -/
def readText (text : List Char) : Option Value :=
  match readValue (2 * text.length) maxDepth text with
  | some (value, rest) => if skipSpace rest = [] then some value else none
  | none => none

def read (bytes : List UInt8) : Option Value :=
  (String.fromUTF8? ⟨bytes.toArray⟩).bind fun text => readText text.toList

end Json

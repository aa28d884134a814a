import Postgresem.Foundation.Json
import Postgresem.Foundation.JsonReader
import Postgresem.Foundation.Utf8

/-! The bytes of a serialized value, written one after another. A closed value is evaluated on them
without its text: what needs no escape is copied from the bytes of the literal. -/
namespace Json

def isPlainCode (code : Nat) : Bool :=
  decide (32 ≤ code) && decide (code < 127) && code != 34 && code != 92

def emitString (value : String) (rest : List UInt8) : List UInt8 :=
  if (Utf8.bytes value).all fun byte => isPlainCode byte.toNat then
    34 :: (Utf8.bytes value ++ 34 :: rest)
  else Utf8.bytes (string value) ++ rest

mutual

/-- The bytes of the value's text before the given rest. -/
def Value.emit : Value → List UInt8 → List UInt8
  | .null, rest => Utf8.bytes "null" ++ rest
  | .boolean value, rest => Utf8.bytes (Json.boolean value) ++ rest
  | .number text, rest => Utf8.bytes text ++ rest
  | .string value, rest => emitString value rest
  | .array items, rest => 91 :: Value.emitItems items (93 :: rest)
  | .object members, rest => 123 :: Value.emitMembers members (125 :: rest)

def Value.emitItems : List Value → List UInt8 → List UInt8
  | [], rest => rest
  | [value], rest => value.emit rest
  | value :: values, rest => value.emit (44 :: Value.emitItems values rest)

def Value.emitMembers : List (String × Value) → List UInt8 → List UInt8
  | [], rest => rest
  | [(name, value)], rest => emitString name (58 :: value.emit rest)
  | (name, value) :: members, rest =>
    emitString name (58 :: value.emit (44 :: Value.emitMembers members rest))

end

theorem escapeChar_of_plain {character : Char} (h : isPlainCode character.toNat = true) :
    escapeChar character = String.ofList [character] := by
  simp only [isPlainCode, Bool.and_eq_true, decide_eq_true_eq, bne_iff_ne] at h
  obtain ⟨⟨⟨hlow, -⟩, hquote⟩, hslash⟩ := h
  have hne : ∀ other : Char, character.toNat ≠ other.toNat → character ≠ other := by
    rintro other hcode rfl
    exact hcode rfl
  have hcontrol : ∀ other : Char, other.toNat < 32 → character ≠ other := by
    intro other hother
    exact hne other (by omega)
  rw [escapeChar, if_neg (hne '"' hquote), if_neg (hne '\\' hslash),
    if_neg (hcontrol '\n' (by decide)), if_neg (hcontrol '\r' (by decide)),
    if_neg (hcontrol '\t' (by decide)), if_neg (by omega), if_neg (by omega), if_neg (by omega)]

theorem toList_string_of_plain {value : String}
    (h : ∀ c ∈ value.toList, isPlainCode c.toNat = true) :
    (string value).toList = '"' :: (value.toList ++ ['"']) := by
  have hescaped : (value.toList.flatMap fun c => (escapeChar c).toList) = value.toList := by
    generalize value.toList = chars at h
    induction chars with
    | nil => rfl
    | cons c chars ih =>
      rw [List.flatMap_cons, escapeChar_of_plain (h c List.mem_cons_self), String.toList_ofList,
        ih fun d hd => h d (List.mem_cons_of_mem c hd)]
      rfl
  rw [toList_string, hescaped]

theorem emitString_eq (value : String) (rest : List UInt8) :
    emitString value rest = Utf8.bytes (string value) ++ rest := by
  have hquote : String.utf8EncodeChar '"' = [34] := rfl
  rw [emitString]
  split_ifs with hplain
  · have hbytes : ∀ byte ∈ Utf8.bytes value, isPlainCode byte.toNat = true :=
      List.all_eq_true.mp hplain
    have hascii : ∀ n, isPlainCode n = true → n < 128 := by
      intro n hn
      simp only [isPlainCode, Bool.and_eq_true, decide_eq_true_eq] at hn
      omega
    have hchars := (Utf8.forall_bytes_iff hascii value).mp hbytes
    rw [Utf8.bytes_eq_flatMap (string value), toList_string_of_plain hchars, List.flatMap_cons,
      List.flatMap_append, List.flatMap_singleton, hquote, ← Utf8.bytes_eq_flatMap]
    simp
  · rfl

mutual

theorem Value.emit_eq : ∀ (value : Value) (rest : List UInt8),
    value.emit rest = Utf8.bytes value.text ++ rest
  | .null, rest => by rw [Value.emit, Value.text]
  | .boolean value, rest => by rw [Value.emit, Value.text]
  | .number text, rest => by rw [Value.emit, Value.text]
  | .string value, rest => by rw [Value.emit, Value.text, emitString_eq]
  | .array items, rest => by
    have hopen : Utf8.bytes "[" = [91] := rfl
    have hclose : Utf8.bytes "]" = [93] := rfl
    rw [Value.emit, Value.emitItems_eq items, Value.text, Json.array, Utf8.bytes_append,
      Utf8.bytes_append, hopen, hclose]
    simp
  | .object members, rest => by
    have hopen : Utf8.bytes "\x7b" = [123] := rfl
    have hclose : Utf8.bytes "\x7d" = [125] := rfl
    rw [Value.emit, Value.emitMembers_eq members, Value.text, Json.object, Utf8.bytes_append,
      Utf8.bytes_append, hopen, hclose]
    simp

theorem Value.emitItems_eq : ∀ (items : List Value) (rest : List UInt8),
    Value.emitItems items rest = Utf8.bytes (",".intercalate (Value.texts items)) ++ rest
  | [], rest => rfl
  | [value], rest => by
    rw [Value.emitItems, Value.emit_eq value, Value.texts, Value.texts, String.intercalate_singleton]
  | value :: next :: values, rest => by
    have hcomma : Utf8.bytes "," = [44] := rfl
    have htexts : Value.texts (value :: next :: values) =
        value.text :: next.text :: Value.texts values := rfl
    have htail : Value.texts (next :: values) = next.text :: Value.texts values := rfl
    rw [Value.emitItems, Value.emit_eq value, Value.emitItems_eq (next :: values), htexts, htail,
      String.intercalate_cons_cons, Utf8.bytes_append, Utf8.bytes_append, hcomma]
    · simp
    · simp

theorem Value.emitMembers_eq : ∀ (members : List (String × Value)) (rest : List UInt8),
    Value.emitMembers members rest =
      Utf8.bytes (",".intercalate ((Value.memberTexts members).map
        fun member => Json.string member.1 ++ ":" ++ member.2)) ++ rest
  | [], rest => rfl
  | [(name, value)], rest => by
    have hcolon : Utf8.bytes ":" = [58] := rfl
    rw [Value.emitMembers, emitString_eq, Value.emit_eq value, Value.memberTexts,
      Value.memberTexts, List.map_singleton, String.intercalate_singleton, Utf8.bytes_append,
      Utf8.bytes_append, hcolon]
    simp
  | (name, value) :: (nextName, nextValue) :: members, rest => by
    have hcolon : Utf8.bytes ":" = [58] := rfl
    have hcomma : Utf8.bytes "," = [44] := rfl
    have htail : Value.memberTexts ((nextName, nextValue) :: members) =
        (nextName, nextValue.text) :: Value.memberTexts members := rfl
    have hmembers : Value.memberTexts ((name, value) :: (nextName, nextValue) :: members) =
        (name, value.text) :: (nextName, nextValue.text) :: Value.memberTexts members := rfl
    rw [Value.emitMembers, emitString_eq, Value.emit_eq value,
      Value.emitMembers_eq ((nextName, nextValue) :: members), hmembers, htail]
    · simp only [List.map_cons, String.intercalate_cons_cons, Utf8.bytes_append, hcolon, hcomma]
      simp
    · simp

end

end Json

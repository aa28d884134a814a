import Postgresem.Foundation.JsonReader

/-! Serialized values are read back, so that a text determines its value. -/
namespace Json

mutual

/-- The numbers of the value are written as numbers. -/
def Value.WellFormed : Value → Prop
  | .number text => ∃ minus integer fraction exponent,
      IsNumber text.toList minus integer fraction exponent
  | .array items => Value.EachWellFormed items
  | .object members => Value.MembersWellFormed members
  | _ => True

def Value.EachWellFormed : List Value → Prop
  | [] => True
  | value :: values => value.WellFormed ∧ Value.EachWellFormed values

def Value.MembersWellFormed : List (String × Value) → Prop
  | [] => True
  | (_, value) :: members => value.WellFormed ∧ Value.MembersWellFormed members

end

mutual

def Value.depth : Value → Nat
  | .array items => Value.itemsDepth items + 1
  | .object members => Value.membersDepth members + 1
  | _ => 0

def Value.itemsDepth : List Value → Nat
  | [] => 0
  | value :: values => max value.depth (Value.itemsDepth values)

def Value.membersDepth : List (String × Value) → Nat
  | [] => 0
  | (_, value) :: members => max value.depth (Value.membersDepth members)

end

theorem Value.eachWellFormed_iff {items : List Value} :
    Value.EachWellFormed items ↔ ∀ value ∈ items, value.WellFormed := by
  induction items with
  | nil => simp [Value.EachWellFormed]
  | cons value values ih => rw [Value.EachWellFormed, ih, List.forall_mem_cons]

theorem Value.itemsDepth_le {items : List Value} {n : Nat} (h : ∀ value ∈ items, value.depth ≤ n) :
    Value.itemsDepth items ≤ n := by
  induction items with
  | nil => exact Nat.zero_le n
  | cons value values ih =>
    obtain ⟨hvalue, hvalues⟩ := List.forall_mem_cons.mp h
    exact Nat.max_le.mpr ⟨hvalue, ih hvalues⟩

/-- The text of an array after its opening bracket. -/
def itemsText : List Value → List Char
  | [] => [']']
  | [value] => value.text.toList ++ [']']
  | value :: values => value.text.toList ++ ',' :: itemsText values

def memberText (member : String × Value) : List Char :=
  (string member.1).toList ++ ':' :: member.2.text.toList

/-- The text of an object after its opening brace. -/
def membersText : List (String × Value) → List Char
  | [] => ['\x7d']
  | [member] => memberText member ++ ['\x7d']
  | member :: members => memberText member ++ ',' :: membersText members

theorem toList_array_text (items : List Value) :
    (Value.array items).text.toList = '[' :: itemsText items := by
  rw [Value.text, array, String.toList_append, String.toList_append]
  induction items with
  | nil => rfl
  | cons value values ih =>
    cases values with
    | nil => simp [Value.texts, itemsText]
    | cons next values =>
      have htail : (",".intercalate (Value.texts (next :: values))).toList ++ [']'] =
          itemsText (next :: values) := by
        simpa using ih
      rw [itemsText, ← htail]
      · simp [Value.texts, String.intercalate_cons_cons]
      · simp

theorem toList_object_text (members : List (String × Value)) :
    (Value.object members).text.toList = '\x7b' :: membersText members := by
  rw [Value.text, object, String.toList_append, String.toList_append]
  induction members with
  | nil => rfl
  | cons member members ih =>
    cases members with
    | nil => simp [Value.memberTexts, membersText, memberText]
    | cons next members =>
      have htail : (",".intercalate ((Value.memberTexts (next :: members)).map
          fun member => string member.1 ++ ":" ++ member.2)).toList ++ ['\x7d'] =
          membersText (next :: members) := by
        simpa using ih
      rw [membersText, ← htail]
      · simp [Value.memberTexts, String.intercalate_cons_cons, memberText]
      · simp

/-- A character that a value can start with. -/
def Starts (character : Char) : Prop :=
  character.isDigit = true ∨ character ∈ ['-', '"', '[', '\x7b', 'n', 't', 'f']

theorem Starts.not_space {character : Char} (h : Starts character) : isSpace character = false := by
  obtain hdigit | hmem := h
  · by_contra hspace
    rw [Bool.not_eq_false, isSpace] at hspace
    simp only [Bool.or_eq_true, beq_iff_eq] at hspace
    obtain ((rfl | rfl) | rfl) | rfl := hspace <;> cases hdigit
  · simp only [List.mem_cons, List.not_mem_nil, or_false] at hmem
    obtain rfl | rfl | rfl | rfl | rfl | rfl | rfl := hmem <;> rfl

theorem Starts.ne_close {character : Char} (h : Starts character) : character ≠ ']' := by
  rintro rfl
  obtain hdigit | hmem := h
  · cases hdigit
  · revert hmem
    decide

theorem IsNumber.first {text minus integer fraction exponent : List Char}
    (h : IsNumber text minus integer fraction exponent) :
    ∃ first rest, text = first :: rest ∧ (first = '-' ∨ first.isDigit = true) := by
  have hdigits := h.integer.toDigits
  cases integer with
  | nil => exact absurd rfl hdigits.ne_nil
  | cons c cs =>
    obtain hminus | hminus := h.minus
    · refine ⟨c, cs ++ fraction ++ exponent, ?_, .inr (hdigits.isDigit c List.mem_cons_self)⟩
      rw [h.parts, hminus]
      rfl
    · refine ⟨'-', c :: cs ++ fraction ++ exponent, ?_, .inl rfl⟩
      rw [h.parts, hminus]
      rfl

theorem Value.text_starts {value : Value} (h : value.WellFormed) :
    ∃ first rest, value.text.toList = first :: rest ∧ Starts first := by
  cases value with
  | null => exact ⟨'n', ['u', 'l', 'l'], rfl, .inr (by decide)⟩
  | boolean value =>
    cases value with
    | true => exact ⟨'t', ['r', 'u', 'e'], rfl, .inr (by decide)⟩
    | false => exact ⟨'f', ['a', 'l', 's', 'e'], rfl, .inr (by decide)⟩
  | number text =>
    obtain ⟨minus, integer, fraction, exponent, hnumber⟩ := h
    obtain ⟨first, rest, htext, hfirst⟩ := hnumber.first
    refine ⟨first, rest, htext, ?_⟩
    obtain rfl | hdigit := hfirst
    · exact .inr (by decide)
    · exact .inl hdigit
  | string value => exact ⟨'"', _, toList_string value, .inr (by decide)⟩
  | array items => exact ⟨'[', itemsText items, toList_array_text items, .inr (by decide)⟩
  | object members =>
    exact ⟨'\x7b', membersText members, toList_object_text members, .inr (by decide)⟩

theorem skipSpace_cons {character : Char} (h : isSpace character = false) (rest : List Char) :
    skipSpace (character :: rest) = character :: rest := by
  simp [skipSpace, h]

theorem Ends.of_mem {character : Char} (h : character ∈ [',', ']', '\x7d', ':', ' ']) (rest : List Char) :
    Ends (character :: rest) := by
  intro c hc
  obtain rfl : character = c := by simpa using hc
  simp only [List.mem_cons, List.not_mem_nil, or_false] at h
  obtain rfl | rfl | rfl | rfl | rfl := h <;> decide

theorem readValue_number (fuel depth : Nat) {text rest : List Char}
    {minus integer fraction exponent : List Char}
    (h : IsNumber text minus integer fraction exponent) (hrest : Ends rest) :
    readValue (fuel + 1) depth (text ++ rest) =
      some (.number (String.ofList text), rest) := by
  obtain ⟨first, tail, htext, hfirst⟩ := h.first
  have hstarts : Starts first := by
    obtain rfl | hdigit := hfirst
    · exact .inr (by decide)
    · exact .inl hdigit
  have hread := h.read hrest
  rw [htext, List.cons_append] at hread ⊢
  rw [readValue, skipSpace_cons hstarts.not_space]
  dsimp only
  rw [if_pos hfirst, hread]
  rfl

theorem readValue_string (fuel depth : Nat) (value : String) (rest : List Char) :
    readValue (fuel + 1) depth ((string value).toList ++ rest) = some (.string value, rest) := by
  obtain ⟨text, htext, hread⟩ := readString_string value rest
  rw [htext, readValue, skipSpace_cons (by decide)]
  dsimp only
  rw [if_neg (by decide), if_pos rfl, hread]
  rfl

/-- An array with items is read item by item. -/
theorem readValue_items (fuel depth : Nat) {text : List Char}
    (h : ∃ first rest, text = first :: rest ∧ Starts first) :
    readValue (fuel + 1) (depth + 1) ('[' :: text) =
      (readItems fuel depth text).map fun (items, rest) => (.array items, rest) := by
  obtain ⟨first, rest, rfl, hfirst⟩ := h
  rw [readValue, skipSpace_cons (by decide)]
  dsimp only
  rw [if_neg (by decide), if_neg (by decide), if_pos rfl, skipSpace_cons hfirst.not_space]
  split
  · next hdepth => cases hdepth
  · next hclose => exact absurd (List.cons.inj hclose).1 hfirst.ne_close
  · next hdepth _ =>
    obtain rfl := Nat.succ.inj hdepth
    rfl

/-- An object with members is read member by member. -/
theorem readValue_members (fuel depth : Nat) (text : List Char) :
    readValue (fuel + 1) (depth + 1) ('\x7b' :: '"' :: text) =
      (readMembers fuel depth ('"' :: text)).map fun (members, rest) => (.object members, rest) := by
  rw [readValue, skipSpace_cons (by decide)]
  dsimp only
  rw [if_neg (by decide), if_neg (by decide), if_neg (by decide), if_pos rfl,
    skipSpace_cons (by decide)]
  rfl

theorem readItems_last (fuel depth : Nat) {value : Value} {text rest : List Char}
    (h : readValue fuel depth text = some (value, ']' :: rest)) :
    readItems (fuel + 1) depth text = some ([value], rest) := by
  have hclose : skipSpace (']' :: rest) = ']' :: rest := skipSpace_cons (by decide) rest
  rw [readItems]
  simp only [h, hclose, Option.bind_eq_bind, Option.bind_some, Option.pure_def]

theorem readItems_next (fuel depth : Nat) {value : Value} {text rest : List Char}
    (h : readValue fuel depth text = some (value, ',' :: rest)) :
    readItems (fuel + 1) depth text =
      (readItems fuel depth rest).map fun (items, rest) => (value :: items, rest) := by
  have hcomma : skipSpace (',' :: rest) = ',' :: rest := skipSpace_cons (by decide) rest
  rw [readItems]
  simp only [h, hcomma, Option.bind_eq_bind, Option.bind_some]

theorem readMembers_last (fuel depth : Nat) (name : String) {value : Value}
    {text rest : List Char} (h : readValue fuel depth text = some (value, '\x7d' :: rest)) :
    readMembers (fuel + 1) depth ((string name).toList ++ ':' :: text) =
      some ([(name, value)], rest) := by
  obtain ⟨text', htext, hread⟩ := readString_string name (':' :: text)
  have hcolon : skipSpace (':' :: text) = ':' :: text := skipSpace_cons (by decide) text
  have hclose : skipSpace ('\x7d' :: rest) = '\x7d' :: rest := skipSpace_cons (by decide) rest
  rw [htext, readMembers, skipSpace_cons (by decide)]
  simp only [hread, hcolon, h, hclose, Option.bind_eq_bind, Option.bind_some, Option.pure_def]

theorem readMembers_next (fuel depth : Nat) (name : String) {value : Value}
    {text rest : List Char} (h : readValue fuel depth text = some (value, ',' :: rest)) :
    readMembers (fuel + 1) depth ((string name).toList ++ ':' :: text) =
      (readMembers fuel depth rest).map
        fun (members, rest) => ((name, value) :: members, rest) := by
  obtain ⟨text', htext, hread⟩ := readString_string name (':' :: text)
  have hcolon : skipSpace (':' :: text) = ':' :: text := skipSpace_cons (by decide) text
  have hcomma : skipSpace (',' :: rest) = ',' :: rest := skipSpace_cons (by decide) rest
  rw [htext, readMembers, skipSpace_cons (by decide)]
  simp only [hread, hcolon, h, hcomma, Option.bind_eq_bind, Option.bind_some]

theorem itemsText_starts {items : List Value} (hitems : items ≠ [])
    (h : Value.EachWellFormed items) (rest : List Char) :
    ∃ first tail, itemsText items ++ rest = first :: tail ∧ Starts first := by
  cases items with
  | nil => exact absurd rfl hitems
  | cons value values =>
    obtain ⟨first, tail, htext, hfirst⟩ := Value.text_starts h.1
    cases values with
    | nil => exact ⟨first, _, by rw [itemsText, htext]; rfl, hfirst⟩
    | cons next values => exact ⟨first, _, by rw [itemsText, htext]; rfl; simp, hfirst⟩

theorem membersText_quote {members : List (String × Value)} (hmembers : members ≠ [])
    (rest : List Char) : ∃ tail, membersText members ++ rest = '"' :: tail := by
  cases members with
  | nil => exact absurd rfl hmembers
  | cons member members =>
    cases members with
    | nil => exact ⟨_, by rw [membersText, memberText, toList_string]; rfl⟩
    | cons next members => exact ⟨_, by rw [membersText, memberText, toList_string]; rfl; simp⟩

mutual

theorem readValue_text : ∀ (value : Value) (fuel depth : Nat) (rest : List Char),
    value.WellFormed → value.depth ≤ depth → 2 * value.text.toList.length ≤ fuel → Ends rest →
      readValue fuel depth (value.text.toList ++ rest) = some (value, rest)
  | .null, fuel, depth, rest, _, _, hfuel, _ => by
    obtain ⟨fuel, rfl⟩ : ∃ n, fuel = n + 1 := ⟨fuel - 1, by
      have hlength : Value.null.text.toList.length = 4 := rfl
      omega⟩
    rfl
  | .boolean true, fuel, depth, rest, _, _, hfuel, _ => by
    obtain ⟨fuel, rfl⟩ : ∃ n, fuel = n + 1 := ⟨fuel - 1, by
      have hlength : (Value.boolean true).text.toList.length = 4 := rfl
      omega⟩
    rfl
  | .boolean false, fuel, depth, rest, _, _, hfuel, _ => by
    obtain ⟨fuel, rfl⟩ : ∃ n, fuel = n + 1 := ⟨fuel - 1, by
      have hlength : (Value.boolean false).text.toList.length = 5 := rfl
      omega⟩
    rfl
  | .number text, fuel, depth, rest, hwell, _, hfuel, hrest => by
    obtain ⟨minus, integer, fraction, exponent, hnumber⟩ := hwell
    obtain ⟨first, tail, htext, -⟩ := hnumber.first
    obtain ⟨fuel, rfl⟩ : ∃ n, fuel = n + 1 := ⟨fuel - 1, by
      rw [Value.text, htext, List.length_cons] at hfuel
      omega⟩
    rw [Value.text, readValue_number fuel depth hnumber hrest, String.ofList_toList]
  | .string value, fuel, depth, rest, _, _, hfuel, _ => by
    obtain ⟨fuel, rfl⟩ : ∃ n, fuel = n + 1 := ⟨fuel - 1, by
      rw [Value.text, toList_string, List.length_cons] at hfuel
      omega⟩
    rw [Value.text, readValue_string]
  | .array [], fuel, depth, rest, _, hdepth, hfuel, _ => by
    obtain ⟨fuel, rfl⟩ : ∃ n, fuel = n + 1 := ⟨fuel - 1, by
      have hlength : (Value.array []).text.toList.length = 2 := rfl
      omega⟩
    obtain ⟨depth, rfl⟩ : ∃ n, depth = n + 1 := ⟨depth - 1, by
      rw [Value.depth] at hdepth
      omega⟩
    rfl
  | .array (value :: values), fuel, depth, rest, hwell, hdepth, hfuel, _ => by
    rw [toList_array_text, List.length_cons] at hfuel
    rw [Value.depth] at hdepth
    obtain ⟨fuel, rfl⟩ : ∃ n, fuel = n + 1 := ⟨fuel - 1, by omega⟩
    obtain ⟨depth, rfl⟩ : ∃ n, depth = n + 1 := ⟨depth - 1, by omega⟩
    rw [toList_array_text, List.cons_append,
      readValue_items fuel depth (itemsText_starts (by simp) hwell rest),
      readItems_text (value :: values) fuel depth rest (by simp) hwell (by omega) (by omega)]
    rfl
  | .object [], fuel, depth, rest, _, hdepth, hfuel, _ => by
    obtain ⟨fuel, rfl⟩ : ∃ n, fuel = n + 1 := ⟨fuel - 1, by
      have hlength : (Value.object []).text.toList.length = 2 := rfl
      omega⟩
    obtain ⟨depth, rfl⟩ : ∃ n, depth = n + 1 := ⟨depth - 1, by
      rw [Value.depth] at hdepth
      omega⟩
    rfl
  | .object (member :: members), fuel, depth, rest, hwell, hdepth, hfuel, _ => by
    rw [toList_object_text, List.length_cons] at hfuel
    rw [Value.depth] at hdepth
    obtain ⟨fuel, rfl⟩ : ∃ n, fuel = n + 1 := ⟨fuel - 1, by omega⟩
    obtain ⟨depth, rfl⟩ : ∃ n, depth = n + 1 := ⟨depth - 1, by omega⟩
    obtain ⟨tail, htail⟩ := membersText_quote (by simp : member :: members ≠ []) rest
    have hread := readMembers_text (member :: members) fuel depth rest (by simp) hwell
      (by omega) (by omega)
    rw [toList_object_text, List.cons_append, htail, readValue_members, ← htail, hread]
    rfl

theorem readItems_text : ∀ (items : List Value) (fuel depth : Nat) (rest : List Char),
    items ≠ [] → Value.EachWellFormed items → Value.itemsDepth items ≤ depth →
      2 * (itemsText items).length + 1 ≤ fuel →
      readItems fuel depth (itemsText items ++ rest) = some (items, rest)
  | [], _, _, _, hitems, _, _, _ => absurd rfl hitems
  | [value], fuel, depth, rest, _, hwell, hdepth, hfuel => by
    rw [itemsText, List.length_append] at hfuel
    rw [Value.itemsDepth] at hdepth
    obtain ⟨fuel, rfl⟩ : ∃ n, fuel = n + 1 := ⟨fuel - 1, by omega⟩
    have hvalue := readValue_text value fuel depth (']' :: rest) hwell.1 (by omega) (by omega)
      (.of_mem (by decide) rest)
    rw [itemsText, List.append_assoc, List.singleton_append, readItems_last fuel depth hvalue]
  | value :: next :: values, fuel, depth, rest, _, hwell, hdepth, hfuel => by
    rw [itemsText, List.length_append, List.length_cons] at hfuel
    · rw [Value.itemsDepth] at hdepth
      obtain ⟨fuel, rfl⟩ : ∃ n, fuel = n + 1 := ⟨fuel - 1, by omega⟩
      have hvalue := readValue_text value fuel depth (',' :: (itemsText (next :: values) ++ rest))
        hwell.1 (by omega) (by omega) (.of_mem (by decide) _)
      have htail := readItems_text (next :: values) fuel depth rest (by simp) hwell.2
        (by omega) (by omega)
      rw [itemsText, List.append_assoc, List.cons_append, readItems_next fuel depth hvalue, htail]
      · rfl
      · simp
    · simp

theorem readMembers_text : ∀ (members : List (String × Value)) (fuel depth : Nat)
    (rest : List Char), members ≠ [] → Value.MembersWellFormed members →
      Value.membersDepth members ≤ depth → 2 * (membersText members).length + 1 ≤ fuel →
      readMembers fuel depth (membersText members ++ rest) = some (members, rest)
  | [], _, _, _, hmembers, _, _, _ => absurd rfl hmembers
  | [(name, value)], fuel, depth, rest, _, hwell, hdepth, hfuel => by
    rw [membersText, memberText, List.length_append, List.length_append, List.length_cons] at hfuel
    dsimp only at hfuel
    rw [Value.membersDepth] at hdepth
    obtain ⟨fuel, rfl⟩ : ∃ n, fuel = n + 1 := ⟨fuel - 1, by omega⟩
    have hvalue := readValue_text value fuel depth ('\x7d' :: rest) hwell.1 (by omega) (by omega)
      (.of_mem (by decide) rest)
    rw [membersText, memberText, List.append_assoc, List.append_assoc, List.cons_append,
      List.singleton_append, readMembers_last fuel depth name hvalue]
  | (name, value) :: next :: members, fuel, depth, rest, _, hwell, hdepth, hfuel => by
    rw [membersText, memberText, List.length_append, List.length_append, List.length_cons,
      List.length_cons] at hfuel
    · dsimp only at hfuel
      rw [Value.membersDepth] at hdepth
      obtain ⟨fuel, rfl⟩ : ∃ n, fuel = n + 1 := ⟨fuel - 1, by omega⟩
      have hvalue := readValue_text value fuel depth
        (',' :: (membersText (next :: members) ++ rest)) hwell.1 (by omega) (by omega)
        (.of_mem (by decide) _)
      have htail := readMembers_text (next :: members) fuel depth rest (by simp) hwell.2
        (by omega) (by omega)
      rw [membersText, memberText, List.append_assoc, List.append_assoc, List.cons_append,
        List.cons_append, readMembers_next fuel depth name hvalue, htail]
      · rfl
      · simp
    · simp

end

theorem Ends.nil : Ends [] := by
  intro c hc
  cases hc

/-- Reading inverts serialization. -/
theorem readText_text {value : Value} (hwell : value.WellFormed) (hdepth : value.depth ≤ maxDepth) :
    readText value.text.toList = some value := by
  have h := readValue_text value (2 * value.text.toList.length) maxDepth [] hwell hdepth le_rfl .nil
  rw [List.append_nil] at h
  rw [readText, h]
  rfl

theorem read_text {value : Value} (hwell : value.WellFormed) (hdepth : value.depth ≤ maxDepth) :
    read value.text.toUTF8.data.toList = some value := by
  have hbytes : String.fromUTF8? ⟨value.text.toUTF8.data.toList.toArray⟩ = some value.text := by
    simp only [Array.toArray_toList]
    exact dif_pos value.text.isValidUTF8
  rw [read, hbytes, Option.bind_some, readText_text hwell hdepth]

/-- A text determines its value, however deep the value is nested. -/
theorem Value.text_inj {value other : Value} (hwell : value.WellFormed) (hother : other.WellFormed)
    (h : value.text = other.text) : value = other := by
  have hdepth := Nat.le_max_left value.depth other.depth
  have hdepth' := Nat.le_max_right value.depth other.depth
  have hread := readValue_text value _ _ [] hwell hdepth le_rfl .nil
  have hread' := readValue_text other _ _ [] hother hdepth' le_rfl .nil
  rw [h, hread'] at hread
  exact (Prod.mk.inj (Option.some.inj hread)).1.symm

end Json

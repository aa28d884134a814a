import Postgresem.Foundation.JsonRoundTrip

/-! The grammar of JSON texts, beside the reader. A derivation says what a text stands for and what
is left behind it; the reader finds a derivation where there is one, and only there. -/
namespace Json

/-! ## Strings -/

/-- Four hexadecimal digits. -/
inductive CodeUnit : List Char → Nat → List Char → Prop
  | digits {a b c d : Char} {w x y z : Nat} {rest : List Char} : hexValue a = some w →
      hexValue b = some x → hexValue c = some y → hexValue d = some z →
      CodeUnit (a :: b :: c :: d :: rest) (((w * 16 + x) * 16 + y) * 16 + z) rest

/-- What follows a backslash. -/
inductive Escape : List Char → Char → List Char → Prop
  | short {mark character : Char} {rest : List Char} : unescape mark = some character →
      Escape (mark :: rest) character rest
  | unit {text rest : List Char} {unit : Nat} : CodeUnit text unit rest →
      unit < 0xD800 ∨ 0xE000 ≤ unit → Escape ('u' :: text) (Char.ofNat unit) rest
  | pair {text text' rest : List Char} {lead trail : Nat} :
      CodeUnit text lead ('\\' :: 'u' :: text') → 0xD800 ≤ lead ∧ lead < 0xDC00 →
      CodeUnit text' trail rest → 0xDC00 ≤ trail ∧ trail < 0xE000 →
      Escape ('u' :: text)
        (Char.ofNat (0x10000 + (lead - 0xD800) * 0x400 + (trail - 0xDC00))) rest

/-- The characters up to the closing quote. -/
inductive Characters : List Char → List Char → List Char → Prop
  | close {rest : List Char} : Characters ('"' :: rest) [] rest
  | escape {text text' rest characters : List Char} {character : Char} :
      Escape text character text' → Characters text' characters rest →
      Characters ('\\' :: text) (character :: characters) rest
  | plain {text rest characters : List Char} {character : Char} : character ≠ '"' →
      character ≠ '\\' → 32 ≤ character.toNat → Characters text characters rest →
      Characters (character :: text) (character :: characters) rest

theorem readUnit_eq_some {text rest : List Char} {unit : Nat} :
    readUnit text = some (unit, rest) ↔ CodeUnit text unit rest := by
  constructor
  · intro h
    unfold readUnit at h
    split at h
    · simp only [Option.bind_eq_bind, Option.pure_def, Option.bind_eq_some_iff, Option.some.injEq,
        Prod.mk.injEq] at h
      obtain ⟨w, hw, x, hx, y, hy, z, hz, rfl, rfl⟩ := h
      exact .digits hw hx hy hz
    · cases h
  · rintro ⟨hw, hx, hy, hz⟩
    simp [readUnit, hw, hx, hy, hz]

theorem unescape_u : unescape 'u' = none := by decide

theorem readUnicode_eq_some {text rest : List Char} {character : Char} :
    readUnicode text = some (character, rest) ↔ Escape ('u' :: text) character rest := by
  constructor
  · intro h
    obtain ⟨⟨unit, after⟩, hunit, h⟩ := Option.bind_eq_some_iff.mp h
    have hunit' := readUnit_eq_some.mp hunit
    dsimp only at h
    split_ifs at h with hlead htrail
    · split at h
      next text' =>
        obtain ⟨⟨partner, after'⟩, hpartner, h⟩ := Option.bind_eq_some_iff.mp h
        dsimp only at h
        split_ifs at h with hrange
        rw [Option.pure_def, Option.some.injEq, Prod.mk.injEq] at h
        obtain ⟨rfl, rfl⟩ := h
        exact .pair hunit' hlead (readUnit_eq_some.mp hpartner) hrange
      next => cases h
    · rw [Option.pure_def, Option.some.injEq, Prod.mk.injEq] at h
      obtain ⟨rfl, rfl⟩ := h
      exact .unit hunit' (by omega)
  · intro h
    generalize hmark : 'u' :: text = marked at h
    cases h with
    | short hshort =>
      obtain ⟨rfl, -⟩ := List.cons.inj hmark
      rw [unescape_u] at hshort
      cases hshort
    | unit hunit hrange =>
      obtain ⟨-, rfl⟩ := List.cons.inj hmark
      rw [readUnicode, readUnit_eq_some.mpr hunit]
      show (if _ then _ else if _ then _ else _) = _
      rw [if_neg (by omega), if_neg (by omega)]
      rfl
    | pair hlead hleads htrail htrails =>
      obtain ⟨-, rfl⟩ := List.cons.inj hmark
      rw [readUnicode, readUnit_eq_some.mpr hlead]
      show (if _ then _ else _) = _
      rw [if_pos hleads]
      show (readUnit _).bind _ = _
      rw [readUnit_eq_some.mpr htrail]
      show (if _ then _ else _) = _
      rw [if_pos htrails]
      rfl

theorem readEscape_eq_some {text rest : List Char} {character : Char} :
    readEscape text = some (character, rest) ↔ Escape text character rest := by
  cases text with
  | nil =>
    constructor
    · intro h
      cases h
    · intro h
      cases h
  | cons mark text =>
    rw [readEscape]
    split_ifs with hmark
    · subst hmark
      exact readUnicode_eq_some
    · constructor
      · intro h
        obtain ⟨c, hc, hpair⟩ := Option.map_eq_some_iff.mp h
        cases hpair
        exact .short hc
      · intro h
        cases h with
        | short hshort => rw [hshort]; rfl
        | unit | pair => exact absurd rfl hmark

theorem Escape.length_lt {text rest : List Char} {character : Char}
    (h : Escape text character rest) : rest.length < text.length := by
  have hunit : ∀ {text rest : List Char} {unit : Nat}, CodeUnit text unit rest →
      text.length = rest.length + 4 := by
    rintro _ _ _ ⟨-, -, -, -⟩
    rfl
  cases h with
  | short => exact Nat.lt_succ_self _
  | unit h _ =>
    have := hunit h
    simp only [List.length_cons]
    omega
  | pair h _ h' _ =>
    have := hunit h
    have := hunit h'
    simp only [List.length_cons] at *
    omega

theorem Characters.length_lt {text rest characters : List Char}
    (h : Characters text characters rest) : rest.length < text.length := by
  induction h with
  | close => exact Nat.lt_succ_self _
  | escape hescape _ ih =>
    have := hescape.length_lt
    simp only [List.length_cons]
    omega
  | plain _ _ _ _ ih =>
    simp only [List.length_cons]
    omega

theorem readChars_sound {fuel : Nat} {text rest characters : List Char}
    (h : readChars fuel text = some (characters, rest)) : Characters text characters rest := by
  induction fuel generalizing text characters with
  | zero => cases h
  | succ fuel ih =>
    cases text with
    | nil => cases h
    | cons character text =>
      rw [readChars] at h
      split_ifs at h with hquote hslash hcontrol
      · cases h
        subst hquote
        exact .close
      · subst hslash
        obtain ⟨⟨escaped, after⟩, hescape, h⟩ := Option.bind_eq_some_iff.mp h
        obtain ⟨⟨others, rest'⟩, hothers, h⟩ := Option.bind_eq_some_iff.mp h
        cases h
        exact .escape (readEscape_eq_some.mp hescape) (ih hothers)
      · obtain ⟨⟨others, rest'⟩, hothers, h⟩ := Option.bind_eq_some_iff.mp h
        cases h
        exact .plain hquote hslash (Nat.not_lt.mp hcontrol) (ih hothers)

theorem Characters.read {text rest characters : List Char} (h : Characters text characters rest)
    {fuel : Nat} (hfuel : text.length ≤ fuel) :
    readChars fuel text = some (characters, rest) := by
  induction h generalizing fuel with
  | close =>
    obtain ⟨fuel, rfl⟩ : ∃ n, fuel = n + 1 := ⟨fuel - 1, by simp only [List.length_cons] at hfuel; omega⟩
    rfl
  | escape hescape _ ih =>
    have hlength := hescape.length_lt
    simp only [List.length_cons] at hfuel
    obtain ⟨fuel, rfl⟩ : ∃ n, fuel = n + 1 := ⟨fuel - 1, by omega⟩
    rw [readChars, if_neg (by decide), if_pos rfl, readEscape_eq_some.mpr hescape]
    show (readChars fuel _).bind _ = _
    rw [ih (by omega)]
    rfl
  | plain hquote hslash hplain _ ih =>
    simp only [List.length_cons] at hfuel
    obtain ⟨fuel, rfl⟩ : ∃ n, fuel = n + 1 := ⟨fuel - 1, by omega⟩
    rw [readChars, if_neg hquote, if_neg hslash, if_neg (Nat.not_lt.mpr hplain), ih (by omega)]
    rfl

theorem readString_eq_some {text rest : List Char} {value : String} :
    readString text = some (value, rest) ↔
      ∃ characters, Characters text characters rest ∧ value = String.ofList characters := by
  rw [readString, Option.map_eq_some_iff]
  constructor
  · rintro ⟨⟨characters, rest'⟩, hread, hpair⟩
    cases hpair
    exact ⟨characters, readChars_sound hread, rfl⟩
  · rintro ⟨characters, h, rfl⟩
    exact ⟨(characters, rest), h.read le_rfl, rfl⟩

/-! ## Values -/

/-- White space, and what is left behind it. -/
inductive Spaced : List Char → List Char → Prop
  | done (text : List Char) : Spaced text text
  | space {character : Char} {text rest : List Char} : isSpace character = true →
      Spaced text rest → Spaced (character :: text) rest

/-- What a text can stand for: a value, or the items or members up to a closing bracket. -/
inductive Part where
  | value (value : Value)
  | items (items : List Value)
  | members (members : List (String × Value))

/-- The text begins with the part, at most `depth` levels deep. -/
inductive Derives : Nat → List Char → Part → List Char → Prop
  | null {depth rest} : Derives depth ("null".toList ++ rest) (.value .null) rest
  | truth {depth rest} : Derives depth ("true".toList ++ rest) (.value (.boolean true)) rest
  | falsity {depth rest} : Derives depth ("false".toList ++ rest) (.value (.boolean false)) rest
  | number {depth text minus integer fraction exponent rest} :
      IsNumber text minus integer fraction exponent →
      Derives depth (text ++ rest) (.value (.number (String.ofList text))) rest
  | string {depth text characters rest} : Characters text characters rest →
      Derives depth ('"' :: text) (.value (.string (String.ofList characters))) rest
  | emptyArray {depth text rest} : Spaced text (']' :: rest) →
      Derives (depth + 1) ('[' :: text) (.value (.array [])) rest
  | array {depth text items rest} : Derives depth text (.items items) rest →
      Derives (depth + 1) ('[' :: text) (.value (.array items)) rest
  | emptyObject {depth text rest} : Spaced text ('\x7d' :: rest) →
      Derives (depth + 1) ('\x7b' :: text) (.value (.object [])) rest
  | object {depth text members rest} : Derives depth text (.members members) rest →
      Derives (depth + 1) ('\x7b' :: text) (.value (.object members)) rest
  | lastItem {depth text text₁ text₂ value rest} : Spaced text text₁ →
      Derives depth text₁ (.value value) text₂ → Spaced text₂ (']' :: rest) →
      Derives depth text (.items [value]) rest
  | item {depth text text₁ text₂ text₃ value values rest} : Spaced text text₁ →
      Derives depth text₁ (.value value) text₂ → Spaced text₂ (',' :: text₃) →
      Derives depth text₃ (.items values) rest → Derives depth text (.items (value :: values)) rest
  | lastMember {depth text text₁ text₂ text₃ text₄ text₅ name value rest} :
      Spaced text ('"' :: text₁) → Characters text₁ name text₂ → Spaced text₂ (':' :: text₃) →
      Spaced text₃ text₄ → Derives depth text₄ (.value value) text₅ →
      Spaced text₅ ('\x7d' :: rest) →
      Derives depth text (.members [(String.ofList name, value)]) rest
  | member {depth text text₁ text₂ text₃ text₄ text₅ text₆ name value members rest} :
      Spaced text ('"' :: text₁) → Characters text₁ name text₂ → Spaced text₂ (':' :: text₃) →
      Spaced text₃ text₄ → Derives depth text₄ (.value value) text₅ →
      Spaced text₅ (',' :: text₆) → Derives depth text₆ (.members members) rest →
      Derives depth text (.members ((String.ofList name, value) :: members)) rest

/-- A whole text stands for the value, at most `depth` levels deep. -/
def Denotes (depth : Nat) (text : List Char) (value : Value) : Prop :=
  ∃ text' rest, Spaced text text' ∧ Derives depth text' (.value value) rest ∧ Spaced rest []

section Spaces

theorem Spaced.length_le {text rest : List Char} (h : Spaced text rest) :
    rest.length ≤ text.length := by
  induction h with
  | done => exact le_rfl
  | space _ _ ih => exact Nat.le_succ_of_le ih

theorem Spaced.append {text rest : List Char} (h : Spaced text rest) (more : List Char) :
    Spaced (text ++ more) (rest ++ more) := by
  induction h with
  | done => exact .done _
  | space hspace _ ih => exact .space hspace ih

theorem Spaced.trans {text middle rest : List Char} (h : Spaced text middle)
    (h' : Spaced middle rest) : Spaced text rest := by
  induction h with
  | done => exact h'
  | space hspace _ ih => exact .space hspace (ih h')

theorem spaced_skipSpace (text : List Char) : Spaced text (skipSpace text) := by
  induction text with
  | nil => exact .done []
  | cons character text ih =>
    by_cases hspace : isSpace character = true
    · rw [show skipSpace (character :: text) = skipSpace text by simp [skipSpace, hspace]]
      exact .space hspace ih
    · rw [skipSpace_cons (by simpa using hspace)]
      exact .done _

/-- The reader skips white space as far as it goes. -/
theorem Spaced.skipSpace_eq {text rest : List Char} (h : Spaced text rest) :
    skipSpace text = skipSpace rest := by
  induction h with
  | done => rfl
  | space hspace _ ih => simpa [skipSpace, hspace] using ih

theorem Spaced.skipSpace_cons {text rest : List Char} {character : Char}
    (h : Spaced text (character :: rest)) (hcharacter : isSpace character = false) :
    skipSpace text = character :: rest := by
  rw [h.skipSpace_eq, Json.skipSpace_cons hcharacter]

/-- White space before something that does not go on with a number does not either. -/
theorem Spaced.ends {text rest : List Char} (h : Spaced text rest) (hrest : Ends rest) :
    Ends text := by
  cases h with
  | done => exact hrest
  | @space character _ _ hspace _ =>
    intro c hc
    obtain rfl : character = c := by simpa using hc
    simp only [isSpace, Bool.or_eq_true, beq_iff_eq] at hspace
    obtain ((rfl | rfl) | rfl) | rfl := hspace <;> decide

end Spaces

theorem Derives.length_lt {depth : Nat} {text rest : List Char} {part : Part}
    (h : Derives depth text part rest) : rest.length < text.length := by
  induction h with
  | null | truth | falsity =>
    simp
    omega
  | number hnumber =>
    obtain ⟨first, tail, rfl, -⟩ := hnumber.first
    simp only [List.length_append, List.length_cons]
    omega
  | string hcharacters =>
    have := hcharacters.length_lt
    simp only [List.length_cons]
    omega
  | emptyArray hspace | emptyObject hspace =>
    have := hspace.length_le
    simp only [List.length_cons] at *
    omega
  | array _ ih | object _ ih =>
    simp only [List.length_cons]
    omega
  | lastItem hbefore _ hafter ih =>
    have := hbefore.length_le
    have := hafter.length_le
    simp only [List.length_cons] at *
    omega
  | item hbefore _ hafter _ ih ih' =>
    have := hbefore.length_le
    have := hafter.length_le
    simp only [List.length_cons] at *
    omega
  | lastMember hbefore hname hcolon hspace _ hafter ih =>
    have := hbefore.length_le
    have := hname.length_lt
    have := hcolon.length_le
    have := hspace.length_le
    have := hafter.length_le
    simp only [List.length_cons] at *
    omega
  | member hbefore hname hcolon hspace _ hafter _ ih ih' =>
    have := hbefore.length_le
    have := hname.length_lt
    have := hcolon.length_le
    have := hspace.length_le
    have := hafter.length_le
    simp only [List.length_cons] at *
    omega

/-! ## The reader finds every derivation -/

/-- The reader's part of the text. -/
def ReadsAs (fuel depth : Nat) (text : List Char) : Part → List Char → Prop
  | .value value, rest => readValue fuel depth text = some (value, rest)
  | .items items, rest => readItems fuel depth text = some (items, rest)
  | .members members, rest => readMembers fuel depth text = some (members, rest)

/-- The reader takes as much of a number as there is. -/
def Part.Ended : Part → List Char → Prop
  | .value (.number _), rest => Ends rest
  | _, _ => True

theorem Ends.ended {rest : List Char} (h : Ends rest) (part : Part) : part.Ended rest := by
  unfold Part.Ended
  split
  · exact h
  · trivial

theorem readValue_spaced {text rest : List Char} (h : Spaced text rest) (fuel depth : Nat) :
    readValue fuel depth text = readValue fuel depth rest := by
  cases fuel with
  | zero => rfl
  | succ fuel => rw [readValue, readValue, h.skipSpace_eq]

theorem readWord_append (word : String) (value : Value) (rest : List Char) :
    readWord word value (word.toList ++ rest) = some (value, rest) := by
  rw [readWord, if_pos (by simp), List.drop_left]

theorem Derives.starts {depth : Nat} {text rest : List Char} {value : Value}
    (h : Derives depth text (.value value) rest) :
    ∃ first tail, text = first :: tail ∧ Starts first := by
  cases h with
  | null => exact ⟨'n', _, rfl, .inr (by decide)⟩
  | truth => exact ⟨'t', _, rfl, .inr (by decide)⟩
  | falsity => exact ⟨'f', _, rfl, .inr (by decide)⟩
  | number hnumber =>
    obtain ⟨first, tail, rfl, hfirst⟩ := hnumber.first
    refine ⟨first, _, rfl, ?_⟩
    obtain rfl | hdigit := hfirst
    · exact .inr (by decide)
    · exact .inl hdigit
  | string => exact ⟨'"', _, rfl, .inr (by decide)⟩
  | emptyArray | array => exact ⟨'[', _, rfl, .inr (by decide)⟩
  | emptyObject | object => exact ⟨'\x7b', _, rfl, .inr (by decide)⟩

theorem Derives.not_closed {depth : Nat} {text rest : List Char} {items : List Value}
    (h : Derives depth text (.items items) rest) (after : List Char) :
    skipSpace text ≠ ']' :: after := by
  have hvalue : ∃ text' value rest', Spaced text text' ∧ Derives depth text' (.value value) rest' := by
    cases h with
    | lastItem hbefore hvalue => exact ⟨_, _, _, hbefore, hvalue⟩
    | item hbefore hvalue => exact ⟨_, _, _, hbefore, hvalue⟩
  obtain ⟨text', value, rest', hbefore, hvalue⟩ := hvalue
  obtain ⟨first, tail, rfl, hfirst⟩ := hvalue.starts
  intro hclosed
  rw [hbefore.skipSpace_cons hfirst.not_space] at hclosed
  exact hfirst.ne_close (List.cons.inj hclosed).1

theorem Derives.not_closed_members {depth : Nat} {text rest : List Char}
    {members : List (String × Value)} (h : Derives depth text (.members members) rest)
    (after : List Char) : skipSpace text ≠ '\x7d' :: after := by
  have hquote : ∃ text', Spaced text ('"' :: text') := by
    cases h with
    | lastMember hbefore => exact ⟨_, hbefore⟩
    | member hbefore => exact ⟨_, hbefore⟩
  obtain ⟨text', hbefore⟩ := hquote
  rw [hbefore.skipSpace_cons (by decide)]
  simp

section Read
variable (fuel depth : Nat) {text rest : List Char}

theorem readValue_emptyArray (h : skipSpace text = ']' :: rest) :
    readValue (fuel + 1) (depth + 1) ('[' :: text) = some (.array [], rest) := by
  rw [readValue, skipSpace_cons (by decide)]
  dsimp only
  rw [if_neg (by decide), if_neg (by decide), if_pos rfl, h]
  rfl

theorem readValue_emptyObject (h : skipSpace text = '\x7d' :: rest) :
    readValue (fuel + 1) (depth + 1) ('\x7b' :: text) = some (.object [], rest) := by
  rw [readValue, skipSpace_cons (by decide)]
  dsimp only
  rw [if_neg (by decide), if_neg (by decide), if_neg (by decide), if_pos rfl, h]
  rfl

theorem readValue_array (h : ∀ rest, skipSpace text ≠ ']' :: rest) :
    readValue (fuel + 1) (depth + 1) ('[' :: text) =
      (readItems fuel depth (skipSpace text)).map fun (items, rest) => (.array items, rest) := by
  rw [readValue, skipSpace_cons (by decide)]
  dsimp only
  rw [if_neg (by decide), if_neg (by decide), if_pos rfl]
  split
  · next hdepth => cases hdepth
  · next hclose => exact absurd hclose (h _)
  · next hdepth _ =>
    obtain rfl := Nat.succ.inj hdepth
    rfl

theorem readValue_object (h : ∀ rest, skipSpace text ≠ '\x7d' :: rest) :
    readValue (fuel + 1) (depth + 1) ('\x7b' :: text) =
      (readMembers fuel depth (skipSpace text)).map
        fun (members, rest) => (.object members, rest) := by
  rw [readValue, skipSpace_cons (by decide)]
  dsimp only
  rw [if_neg (by decide), if_neg (by decide), if_neg (by decide), if_pos rfl]
  split
  · next hdepth => cases hdepth
  · next hclose => exact absurd hclose (h _)
  · next hdepth _ =>
    obtain rfl := Nat.succ.inj hdepth
    rfl

theorem readItems_skipSpace : readItems fuel depth (skipSpace text) = readItems fuel depth text := by
  cases fuel with
  | zero => rfl
  | succ fuel => rw [readItems, readItems, ← readValue_spaced (spaced_skipSpace text)]

theorem readMembers_skipSpace :
    readMembers fuel depth (skipSpace text) = readMembers fuel depth text := by
  cases fuel with
  | zero => rfl
  | succ fuel => rw [readMembers, readMembers, ← (spaced_skipSpace text).skipSpace_eq]

end Read

theorem Derives.read {depth : Nat} {text rest : List Char} {part : Part}
    (h : Derives depth text part rest) (hended : part.Ended rest) {fuel : Nat}
    (hfuel : 2 * text.length ≤ fuel + 2 * rest.length) : ReadsAs fuel depth text part rest := by
  have hlength := h.length_lt
  obtain ⟨fuel, rfl⟩ : ∃ n, fuel = n + 1 := ⟨fuel - 1, by omega⟩
  have hclose : ∀ {closing : Char} {text rest : List Char}, closing ∈ [',', ']', '\x7d', ':', ' '] →
      Spaced text (closing :: rest) → Ends text := fun hmem hspace => hspace.ends (.of_mem hmem _)
  induction h generalizing fuel with
  | null => exact readWord_append "null" .null _
  | truth => exact readWord_append "true" (.boolean .true) _
  | falsity => exact readWord_append "false" (.boolean .false) _
  | number hnumber => exact readValue_number fuel _ hnumber hended
  | string hcharacters =>
    show (readString _).map _ = _
    rw [readString_eq_some.mpr ⟨_, hcharacters, rfl⟩]
    rfl
  | emptyArray hspace => exact readValue_emptyArray fuel _ (hspace.skipSpace_cons (by decide))
  | emptyObject hspace => exact readValue_emptyObject fuel _ (hspace.skipSpace_cons (by decide))
  | array hitems ih =>
    have hitems_length := hitems.length_lt
    simp only [List.length_cons] at hfuel
    obtain ⟨fuel, rfl⟩ : ∃ n, fuel = n + 1 := ⟨fuel - 1, by omega⟩
    have hread : readItems (fuel + 1) _ _ = _ := ih trivial hitems_length fuel (by omega)
    show readValue _ _ _ = _
    rw [readValue_array _ _ hitems.not_closed, readItems_skipSpace, hread]
    rfl
  | object hmembers ih =>
    have hmembers_length := hmembers.length_lt
    simp only [List.length_cons] at hfuel
    obtain ⟨fuel, rfl⟩ : ∃ n, fuel = n + 1 := ⟨fuel - 1, by omega⟩
    have hread : readMembers (fuel + 1) _ _ = _ := ih trivial hmembers_length fuel (by omega)
    show readValue _ _ _ = _
    rw [readValue_object _ _ hmembers.not_closed_members, readMembers_skipSpace, hread]
    rfl
  | lastItem hbefore hvalue hafter ih =>
    have hbefore_length := hbefore.length_le
    have hafter_length := hafter.length_le
    have hvalue_length := hvalue.length_lt
    simp only [List.length_cons] at hafter_length
    obtain ⟨fuel, rfl⟩ : ∃ n, fuel = n + 1 := ⟨fuel - 1, by omega⟩
    have hread := ih ((hclose (by decide) hafter).ended _) hvalue_length fuel (by omega)
    show readItems _ _ _ = _
    rw [readItems, readValue_spaced hbefore, hread]
    simp only [Option.bind_eq_bind, Option.bind_some, hafter.skipSpace_cons (by decide),
      Option.pure_def]
  | item hbefore hvalue hafter hitems ih ih' =>
    have hbefore_length := hbefore.length_le
    have hafter_length := hafter.length_le
    have hvalue_length := hvalue.length_lt
    have hitems_length := hitems.length_lt
    simp only [List.length_cons] at hafter_length
    obtain ⟨fuel, rfl⟩ : ∃ n, fuel = n + 1 := ⟨fuel - 1, by omega⟩
    have hread := ih ((hclose (by decide) hafter).ended _) hvalue_length fuel (by omega)
    have hothers : readItems (fuel + 1) _ _ = _ := ih' trivial hitems_length fuel (by omega)
    show readItems _ _ _ = _
    rw [readItems, readValue_spaced hbefore, hread]
    simp only [Option.bind_eq_bind, Option.bind_some, hafter.skipSpace_cons (by decide), hothers,
      Option.map_some]
  | lastMember hbefore hname hcolon hspace hvalue hafter ih =>
    have hbefore_length := hbefore.length_le
    have hname_length := hname.length_lt
    have hcolon_length := hcolon.length_le
    have hspace_length := hspace.length_le
    have hafter_length := hafter.length_le
    have hvalue_length := hvalue.length_lt
    simp only [List.length_cons] at hbefore_length hcolon_length hafter_length
    obtain ⟨fuel, rfl⟩ : ∃ n, fuel = n + 1 := ⟨fuel - 1, by omega⟩
    have hread := ih ((hclose (by decide) hafter).ended _) hvalue_length fuel (by omega)
    show readMembers _ _ _ = _
    rw [readMembers, hbefore.skipSpace_cons (by decide)]
    simp only [readString_eq_some.mpr ⟨_, hname, rfl⟩, Option.bind_eq_bind, Option.bind_some,
      hcolon.skipSpace_cons (by decide), readValue_spaced hspace]
    rw [hread]
    simp only [Option.bind_some, hafter.skipSpace_cons (by decide), Option.pure_def]
  | member hbefore hname hcolon hspace hvalue hafter hmembers ih ih' =>
    have hbefore_length := hbefore.length_le
    have hname_length := hname.length_lt
    have hcolon_length := hcolon.length_le
    have hspace_length := hspace.length_le
    have hafter_length := hafter.length_le
    have hvalue_length := hvalue.length_lt
    have hmembers_length := hmembers.length_lt
    simp only [List.length_cons] at hbefore_length hcolon_length hafter_length
    obtain ⟨fuel, rfl⟩ : ∃ n, fuel = n + 1 := ⟨fuel - 1, by omega⟩
    have hread := ih ((hclose (by decide) hafter).ended _) hvalue_length fuel (by omega)
    have hothers : readMembers (fuel + 1) _ _ = _ := ih' trivial hmembers_length fuel (by omega)
    show readMembers _ _ _ = _
    rw [readMembers, hbefore.skipSpace_cons (by decide)]
    simp only [readString_eq_some.mpr ⟨_, hname, rfl⟩, Option.bind_eq_bind, Option.bind_some,
      hcolon.skipSpace_cons (by decide), readValue_spaced hspace]
    rw [hread]
    simp only [Option.bind_some, hafter.skipSpace_cons (by decide), hothers, Option.map_some]

/-! ## What the reader reads is derived -/

/-- The text has a derivation of the part, after white space. -/
def Found (depth : Nat) (text : List Char) : Part → List Char → Prop
  | .value value, rest => ∃ text', Spaced text text' ∧ Derives depth text' (.value value) rest
  | part, rest => Derives depth text part rest

theorem readWord_eq_some {word : String} {value found : Value} {text rest : List Char}
    (h : readWord word value text = some (found, rest)) :
    found = value ∧ text = word.toList ++ rest := by
  rw [readWord] at h
  split_ifs at h with hword
  obtain ⟨tail, rfl⟩ := List.isPrefixOf_iff_prefix.mp hword
  rw [List.drop_left, Option.some.injEq, Prod.mk.injEq] at h
  obtain ⟨rfl, rfl⟩ := h
  exact ⟨rfl, rfl⟩

section Sound
variable {fuel : Nat}
  (ih : ∀ {depth : Nat} {text rest : List Char} {part : Part},
    ReadsAs fuel depth text part rest → Found depth text part rest)
include ih

theorem array_sound {depth : Nat} {text rest : List Char} {value : Value}
    (h : readValue (fuel + 1) depth ('[' :: text) = some (value, rest)) :
    Derives depth ('[' :: text) (.value value) rest := by
  cases depth with
  | zero =>
    rw [readValue, skipSpace_cons (by decide)] at h
    cases h
  | succ depth =>
    by_cases hclosed : ∃ after, skipSpace text = ']' :: after
    · obtain ⟨after, hclosed⟩ := hclosed
      rw [readValue_emptyArray fuel depth hclosed] at h
      cases h
      exact .emptyArray (hclosed ▸ spaced_skipSpace text)
    · rw [readValue_array fuel depth fun after hafter => hclosed ⟨after, hafter⟩,
        readItems_skipSpace] at h
      obtain ⟨⟨items, rest'⟩, hitems, hpair⟩ := Option.map_eq_some_iff.mp h
      cases hpair
      have hfound : Found depth text (.items items) rest := ih hitems
      exact .array hfound

theorem object_sound {depth : Nat} {text rest : List Char} {value : Value}
    (h : readValue (fuel + 1) depth ('\x7b' :: text) = some (value, rest)) :
    Derives depth ('\x7b' :: text) (.value value) rest := by
  cases depth with
  | zero =>
    rw [readValue, skipSpace_cons (by decide)] at h
    cases h
  | succ depth =>
    by_cases hclosed : ∃ after, skipSpace text = '\x7d' :: after
    · obtain ⟨after, hclosed⟩ := hclosed
      rw [readValue_emptyObject fuel depth hclosed] at h
      cases h
      exact .emptyObject (hclosed ▸ spaced_skipSpace text)
    · rw [readValue_object fuel depth fun after hafter => hclosed ⟨after, hafter⟩,
        readMembers_skipSpace] at h
      obtain ⟨⟨members, rest'⟩, hmembers, hpair⟩ := Option.map_eq_some_iff.mp h
      cases hpair
      have hfound : Found depth text (.members members) rest := ih hmembers
      exact .object hfound

theorem value_sound {depth : Nat} {text rest : List Char} {value : Value}
    (h : readValue (fuel + 1) depth text = some (value, rest)) :
    ∃ text', Spaced text text' ∧ Derives depth text' (.value value) rest := by
  refine ⟨skipSpace text, spaced_skipSpace text, ?_⟩
  rw [readValue_spaced (spaced_skipSpace text)] at h
  have hfixed : skipSpace (skipSpace text) = skipSpace text :=
    (spaced_skipSpace text).skipSpace_eq.symm
  generalize skipSpace text = start at h hfixed
  cases start with
  | nil => cases h
  | cons first after =>
    by_cases harray : first = '['
    · subst harray
      exact array_sound ih h
    by_cases hobject : first = '\x7b'
    · subst hobject
      exact object_sound ih h
    rw [readValue, hfixed] at h
    dsimp only at h
    split_ifs at h with hnumber hstring hn ht hf
    · obtain ⟨⟨number, rest'⟩, hread, hpair⟩ := Option.map_eq_some_iff.mp h
      cases hpair
      obtain ⟨⟨minus, integer, fraction, exponent, hgrammar⟩, htext⟩ := readNumber_eq_some hread
      rw [htext]
      exact .number hgrammar
    · subst hstring
      obtain ⟨⟨string, rest'⟩, hread, hpair⟩ := Option.map_eq_some_iff.mp h
      cases hpair
      obtain ⟨characters, hcharacters, rfl⟩ := readString_eq_some.mp hread
      exact .string hcharacters
    · obtain ⟨rfl, htext⟩ := readWord_eq_some h
      rw [htext]
      exact .null
    · obtain ⟨rfl, htext⟩ := readWord_eq_some h
      rw [htext]
      exact .truth
    · obtain ⟨rfl, htext⟩ := readWord_eq_some h
      rw [htext]
      exact .falsity

theorem items_sound {depth : Nat} {text rest : List Char} {items : List Value}
    (h : readItems (fuel + 1) depth text = some (items, rest)) :
    Derives depth text (.items items) rest := by
  rw [readItems] at h
  obtain ⟨⟨value, text₂⟩, hvalue, h⟩ := Option.bind_eq_some_iff.mp h
  obtain ⟨text₁, hbefore, hderives⟩ : Found depth text (.value value) text₂ := ih hvalue
  have hafter := spaced_skipSpace text₂
  dsimp only at h
  split at h
  next text₃ hcomma =>
    obtain ⟨⟨values, rest'⟩, hvalues, hpair⟩ := Option.map_eq_some_iff.mp h
    cases hpair
    have hfound : Found depth text₃ (.items values) rest' := ih hvalues
    exact .item hbefore hderives (hcomma ▸ hafter) hfound
  next text₃ hclose =>
    cases h
    exact .lastItem hbefore hderives (hclose ▸ hafter)
  next => cases h

theorem members_sound {depth : Nat} {text rest : List Char} {members : List (String × Value)}
    (h : readMembers (fuel + 1) depth text = some (members, rest)) :
    Derives depth text (.members members) rest := by
  have hbefore := spaced_skipSpace text
  rw [readMembers] at h
  split at h
  next text₁ hquote =>
    obtain ⟨⟨name, text₂⟩, hname, h⟩ := Option.bind_eq_some_iff.mp h
    obtain ⟨characters, hcharacters, rfl⟩ := readString_eq_some.mp hname
    have hcolon := spaced_skipSpace text₂
    dsimp only at h
    split at h
    next text₃ hmark =>
      obtain ⟨⟨value, text₅⟩, hvalue, h⟩ := Option.bind_eq_some_iff.mp h
      obtain ⟨text₄, hspace, hderives⟩ : Found depth text₃ (.value value) text₅ := ih hvalue
      have hafter := spaced_skipSpace text₅
      dsimp only at h
      split at h
      next text₆ hcomma =>
        obtain ⟨⟨others, rest'⟩, hothers, hpair⟩ := Option.map_eq_some_iff.mp h
        cases hpair
        have hfound : Found depth text₆ (.members others) rest' := ih hothers
        exact .member (hquote ▸ hbefore) hcharacters (hmark ▸ hcolon) hspace hderives
          (hcomma ▸ hafter) hfound
      next text₆ hclose =>
        cases h
        exact .lastMember (hquote ▸ hbefore) hcharacters (hmark ▸ hcolon) hspace hderives
          (hclose ▸ hafter)
      next => cases h
    next => cases h
  next => cases h

end Sound

theorem ReadsAs.found {fuel depth : Nat} {text rest : List Char} {part : Part}
    (h : ReadsAs fuel depth text part rest) : Found depth text part rest := by
  induction fuel generalizing depth text rest part with
  | zero => cases part <;> cases h
  | succ fuel ih =>
    cases part with
    | value value => exact value_sound ih h
    | items items => exact items_sound ih h
    | members members => exact members_sound ih h

/-- The reader accepts the texts of the grammar, with the value that they stand for. -/
theorem readText_eq_some {text : List Char} {value : Value} :
    readText text = some value ↔ Denotes maxDepth text value := by
  rw [readText]
  constructor
  · intro h
    split at h
    next found rest hread =>
      split_ifs at h with hend
      cases h
      obtain ⟨text', hspace, hderives⟩ : Found maxDepth text (.value value) rest :=
        ReadsAs.found hread
      exact ⟨text', rest, hspace, hderives, hend ▸ spaced_skipSpace rest⟩
    next => cases h
  · rintro ⟨text', rest, hspace, hderives, hend⟩
    have hended : Ends rest := hend.ends .nil
    have hlength := hspace.length_le
    have hread : readValue (2 * text.length) maxDepth text' = some (value, rest) :=
      hderives.read (hended.ended _) (by omega)
    rw [readValue_spaced hspace, hread]
    have hrest : skipSpace rest = [] := hend.skipSpace_eq
    simp only [hrest, if_true]

end Json

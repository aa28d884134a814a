import Mathlib.Tactic.IntervalCases
import Postgresem.Foundation.Decimal
import Postgresem.Foundation.Lines
import Postgresem.Semantic.Literal

/-! The grammars of typed literals, and the functions that check them with every slice and index that
could be out of range: where one is, there is no answer. -/
namespace Postgresem
open Grammar
open scoped Computability

section Numeric

/-- The first byte of the integer is looked at only if there is another. -/
def Checked.leadingZero (integer : List UInt8) : Option Bool :=
  if 1 < integer.length then integer[0]?.map (· == 48) else some false

/-- The part of `valid_numeric` behind the sign. -/
def Checked.validUnsigned (unsigned : List UInt8) : Option Bool := do
  let integerEnd := (unsigned.idxOf? 46).getD unsigned.length
  let integer ← slice unsigned 0 integerEnd
  if integer.isEmpty || !integer.all isAsciiDigit then some false
  else
    let leadingZero ← Checked.leadingZero integer
    if leadingZero then some false
    else if integerEnd == unsigned.length then some true
    else
      let fraction ← slice unsigned (integerEnd + 1) unsigned.length
      some (!fraction.isEmpty && fraction.all isAsciiDigit)

def Checked.validNumeric (bytes : List UInt8) : Option Bool :=
  if bytes.isEmpty then some false
  else do
    let first ← bytes[0]?
    let start := if first == 45 then 1 else 0
    if start == bytes.length then some false
    else
      let unsigned ← slice bytes start bytes.length
      Checked.validUnsigned unsigned

def isNonZeroDigit (byte : UInt8) : Bool := 49 ≤ byte && byte ≤ 57

def digits : Language UInt8 := (oneOf isAsciiDigit)∗

/-- `0|[1-9][0-9]*` -/
def integerGrammar : Language UInt8 := letter 48 + oneOf isNonZeroDigit * digits

/-- `(\.[0-9]+)?` -/
def fractionGrammar : Language UInt8 := optional (letter 46 * (oneOf isAsciiDigit * digits))

/-- `-?(0|[1-9][0-9]*)(\.[0-9]+)?` -/
def numericGrammar : Language UInt8 := optional (letter 45) * (integerGrammar * fractionGrammar)

theorem isAsciiDigit_iff_isNonZeroDigit (byte : UInt8) :
    isAsciiDigit byte = true ↔ byte = 48 ∨ isNonZeroDigit byte = true := by
  simp only [isAsciiDigit, isNonZeroDigit, Bool.and_eq_true, decide_eq_true_eq, UInt8.le_iff_toNat_le,
    ← UInt8.toNat_inj, UInt8.reduceToNat]
  omega

theorem mem_integerGrammar (integer : List UInt8) :
    integer ∈ integerGrammar ↔ integer ≠ [] ∧ (∀ byte ∈ integer, isAsciiDigit byte = true) ∧
      ¬ (1 < integer.length ∧ integer[0]? = some 48) := by
  rw [integerGrammar, Language.mem_add, mem_oneOf_mul]
  constructor
  · rintro (rfl | ⟨first, hfirst, rest, hrest, rfl⟩)
    · simp [isAsciiDigit]
    · have hdigit := (isAsciiDigit_iff_isNonZeroDigit first).mpr (.inr hfirst)
      refine ⟨by simp, List.forall_mem_cons.mpr ⟨hdigit, mem_oneOf_kstar.mp hrest⟩, ?_⟩
      rintro ⟨_, hzero⟩
      rw [List.getElem?_cons_zero, Option.some.injEq] at hzero
      subst hzero
      simp [isNonZeroDigit] at hfirst
  · rintro ⟨hne, hall, hzero⟩
    cases integer with
    | nil => exact absurd rfl hne
    | cons first rest =>
      obtain ⟨hfirst, hrest⟩ := List.forall_mem_cons.mp hall
      obtain rfl | hnonzero := (isAsciiDigit_iff_isNonZeroDigit first).mp hfirst
      · refine .inl ?_
        have hlength : ¬ 1 < (48 :: rest).length := fun h => hzero ⟨h, rfl⟩
        have hrest' : rest = [] := by
          rw [List.length_cons] at hlength
          exact List.eq_nil_of_length_eq_zero (by omega)
        rw [hrest']
        rfl
      · exact .inr ⟨first, hnonzero, rest, mem_oneOf_kstar.mpr hrest, rfl⟩

theorem not_mem_of_digits {byte : UInt8} {word : List UInt8}
    (h : ∀ other ∈ word, isAsciiDigit other = true) (hbyte : isAsciiDigit byte = false) :
    byte ∉ word := by
  intro hmem
  rw [h byte hmem] at hbyte
  cases hbyte

theorem mem_integer_mul_fraction_of_not_mem {unsigned : List UInt8} (h : 46 ∉ unsigned) :
    unsigned ∈ integerGrammar * fractionGrammar ↔ unsigned ∈ integerGrammar := by
  rw [Language.mem_mul]
  constructor
  · rintro ⟨integer, hinteger, fraction, hfraction, rfl⟩
    obtain rfl | hpoint := mem_optional.mp hfraction
    · rwa [List.append_nil]
    · obtain ⟨rest, _, rfl⟩ := mem_letter_mul.mp hpoint
      simp at h
  · intro hinteger
    exact ⟨unsigned, hinteger, [], mem_optional.mpr (.inl rfl), List.append_nil unsigned⟩

theorem mem_integer_mul_fraction {integer fraction : List UInt8} (h : 46 ∉ integer) :
    integer ++ 46 :: fraction ∈ integerGrammar * fractionGrammar ↔
      integer ∈ integerGrammar ∧ fraction ∈ oneOf isAsciiDigit * digits := by
  rw [Language.mem_mul]
  constructor
  · rintro ⟨integer', hinteger, fraction', hfraction, heq⟩
    have hdigits := ((mem_integerGrammar integer').mp hinteger).2.1
    have hnot : 46 ∉ integer' := not_mem_of_digits hdigits rfl
    obtain rfl | hpoint := mem_optional.mp hfraction
    · rw [List.append_nil] at heq
      rw [heq] at hnot
      simp at hnot
    · obtain ⟨rest, hrest, rfl⟩ := mem_letter_mul.mp hpoint
      obtain ⟨rfl, rfl⟩ := Lines.split_unique hnot h heq
      exact ⟨hinteger, hrest⟩
  · rintro ⟨hinteger, hfraction⟩
    exact ⟨integer, hinteger, 46 :: fraction,
      mem_optional.mpr (.inr (mem_letter_mul.mpr ⟨fraction, hfraction, rfl⟩)), rfl⟩

theorem leadingZero_eq {integer : List UInt8} (h : integer ≠ []) :
    Checked.leadingZero integer =
      some (decide (1 < integer.length ∧ integer[0]? = some 48)) := by
  cases integer with
  | nil => exact absurd rfl h
  | cons first rest =>
    unfold Checked.leadingZero
    by_cases hlong : 1 < (first :: rest).length
    · rw [if_pos hlong, List.getElem?_cons_zero, Option.map_some]
      simp only [hlong, true_and, Option.some.injEq]
      rfl
    · rw [if_neg hlong]
      simp only [hlong, false_and, decide_false]

/-- What is left to decide once the integer part was checked. -/
theorem decides_integer {integer : List UInt8} {rest : Option Bool} {statement : Prop}
    (h : Decides rest statement) :
    Decides (if integer.isEmpty || !integer.all isAsciiDigit then some false
      else do
        let leadingZero ← Checked.leadingZero integer
        if leadingZero then some false else rest)
      (integer ∈ integerGrammar ∧ statement) := by
  by_cases hshape : integer ≠ [] ∧ ∀ byte ∈ integer, isAsciiDigit byte = true
  · have hcheck : (integer.isEmpty || !integer.all isAsciiDigit) = false := by
      simpa using hshape
    rw [hcheck, if_neg (by simp), leadingZero_eq hshape.1, Option.bind_eq_bind, Option.bind_some]
    by_cases hzero : 1 < integer.length ∧ integer[0]? = some 48
    · rw [if_pos (by simpa using hzero)]
      exact decides_false fun hmem => ((mem_integerGrammar integer).mp hmem.1).2.2 hzero
    · rw [if_neg (by simpa using hzero)]
      refine h.congr ⟨fun hrest => ⟨?_, hrest⟩, fun hboth => hboth.2⟩
      exact (mem_integerGrammar integer).mpr ⟨hshape.1, hshape.2, hzero⟩
  · have hcheck : (integer.isEmpty || !integer.all isAsciiDigit) = true := by
      rw [← Bool.not_eq_false]
      simpa using hshape
    rw [hcheck, if_pos rfl]
    exact decides_false fun hmem =>
      hshape ⟨((mem_integerGrammar integer).mp hmem.1).1, ((mem_integerGrammar integer).mp hmem.1).2.1⟩

theorem validUnsigned_decides (unsigned : List UInt8) :
    Decides (Checked.validUnsigned unsigned) (unsigned ∈ integerGrammar * fractionGrammar) := by
  unfold Checked.validUnsigned
  obtain hnone | ⟨integer, fraction, hinteger, rfl⟩ := Lines.first_line 46 unsigned
  · have hpoint : (unsigned.idxOf? 46).getD unsigned.length = unsigned.length := by
      rw [List.idxOf?_eq_none_iff.mpr hnone, Option.getD_none]
    simp only [hpoint, slice_from_start (le_refl unsigned.length), List.take_length,
      Option.bind_eq_bind, Option.bind_some, beq_self_eq_true, if_true]
    refine (decides_integer (decides_true trivial)).congr ?_
    rw [mem_integer_mul_fraction_of_not_mem hnone, and_true]
  · have hpoint : ((integer ++ 46 :: fraction).idxOf? 46).getD (integer ++ 46 :: fraction).length =
        integer.length := by
      rw [Lines.idxOf?_of_split hinteger, Option.getD_some]
    have hlength : integer.length < (integer ++ 46 :: fraction).length := by
      simp
    have hfraction : slice (integer ++ 46 :: fraction) (integer.length + 1)
        (integer ++ 46 :: fraction).length = some fraction := by
      rw [slice_to_end (by omega), ← List.drop_drop, List.drop_left, List.drop_one, List.tail_cons]
    have hend : (integer.length == (integer ++ 46 :: fraction).length) = false := by
      rw [beq_eq_false_iff_ne]
      omega
    simp only [hpoint, slice_from_start hlength.le, List.take_left, hfraction, hend,
      Option.bind_eq_bind, Option.bind_some, if_false, Bool.false_eq_true]
    refine (decides_integer (decides_some ?_)).congr (mem_integer_mul_fraction hinteger).symm
    rw [digits, mem_oneOf_mul_kstar, Bool.and_eq_true, List.all_eq_true, Bool.not_eq_true',
      List.isEmpty_eq_false_iff]

theorem mem_numericGrammar (bytes : List UInt8) :
    bytes ∈ numericGrammar ↔ bytes ∈ integerGrammar * fractionGrammar ∨
      ∃ unsigned ∈ integerGrammar * fractionGrammar, bytes = 45 :: unsigned := by
  rw [numericGrammar, Grammar.optional, add_mul, one_mul, Language.mem_add, mem_letter_mul]

theorem head_of_integer_mul_fraction {first : UInt8} {rest : List UInt8}
    (h : first :: rest ∈ integerGrammar * fractionGrammar) : isAsciiDigit first = true := by
  obtain ⟨integer, hinteger, fraction, _, heq⟩ := Language.mem_mul.mp h
  obtain ⟨hne, hall, _⟩ := (mem_integerGrammar integer).mp hinteger
  cases integer with
  | nil => exact absurd rfl hne
  | cons other integer =>
    rw [List.cons_append, List.cons.injEq] at heq
    exact heq.1 ▸ (List.forall_mem_cons.mp hall).1

theorem nil_not_mem_integer_mul_fraction : [] ∉ integerGrammar * fractionGrammar := by
  intro h
  obtain ⟨integer, hinteger, fraction, _, heq⟩ := Language.mem_mul.mp h
  exact ((mem_integerGrammar integer).mp hinteger).1 (List.append_eq_nil_iff.mp heq).1

theorem validNumeric_decides (bytes : List UInt8) :
    Decides (Checked.validNumeric bytes) (bytes ∈ numericGrammar) := by
  cases bytes with
  | nil =>
    refine decides_false fun h => ?_
    obtain h | ⟨_, _, heq⟩ := (mem_numericGrammar []).mp h
    · exact nil_not_mem_integer_mul_fraction h
    · cases heq
  | cons first rest =>
    have hlength : 0 < (first :: rest).length := Nat.succ_pos _
    by_cases hsign : first = 45
    · subst hsign
      have hiff : (45 :: rest) ∈ numericGrammar ↔ rest ∈ integerGrammar * fractionGrammar := by
        rw [mem_numericGrammar]
        constructor
        · rintro (h | ⟨unsigned, hunsigned, heq⟩)
          · cases head_of_integer_mul_fraction h
          · rwa [(List.cons.inj heq).2]
        · exact fun h => .inr ⟨rest, h, rfl⟩
      by_cases hempty : rest = []
      · subst hempty
        exact decides_false fun h => nil_not_mem_integer_mul_fraction (hiff.mp h)
      · have hstart : (1 == (45 :: rest : List UInt8).length) = false := by
          rw [beq_eq_false_iff_ne, List.length_cons]
          have := List.length_pos_iff.mpr hempty
          omega
        have hslice := slice_to_end (l := (45 :: rest : List UInt8)) (i := 1) hlength
        simp only [Checked.validNumeric, List.isEmpty_cons, Bool.false_eq_true, if_false,
          List.getElem?_cons_zero, Option.bind_eq_bind, Option.bind_some, beq_self_eq_true, if_true,
          hstart, hslice, List.drop_one, List.tail_cons]
        exact (validUnsigned_decides rest).congr hiff.symm
    · have hiff : (first :: rest) ∈ numericGrammar ↔
          (first :: rest) ∈ integerGrammar * fractionGrammar := by
        rw [mem_numericGrammar]
        refine or_iff_left ?_
        rintro ⟨unsigned, _, heq⟩
        exact hsign (List.cons.inj heq).1
      have hslice := slice_to_end (l := first :: rest) (i := 0) hlength.le
      simp only [Checked.validNumeric, List.isEmpty_cons, Bool.false_eq_true, if_false,
        List.getElem?_cons_zero, Option.bind_eq_bind, Option.bind_some, beq_iff_eq, hsign,
        hlength.ne, hslice, List.drop_zero]
      exact (validUnsigned_decides (first :: rest)).congr hiff.symm

end Numeric

section Digits

/-- `let Some(value) = parse_digits(field) else { return false }` -/
def Checked.withDigits (field : List UInt8) (rest : Nat → Option Bool) : Option Bool :=
  match parseDigits field with
  | some value => rest value
  | none => some false

/-- Nine digits or fewer are a number below `2 ^ 32`. -/
theorem parseDigits_written {field : List UInt8} {width value : Nat} (hwidth : width ≤ 9)
    (h : field ∈ Decimal.written width value) (hne : field ≠ []) :
    parseDigits field = some value := by
  have hdigits : field.all isAsciiDigit = true := by
    rw [List.all_eq_true, h.2]
    exact fun byte hbyte => Decimal.isDigit_padded hbyte
  have hempty : field.isEmpty = false := List.isEmpty_eq_false_iff.mpr hne
  rw [parseDigits, hdigits, hempty, if_neg (by simp)]
  clear hdigits hempty hne
  induction width generalizing field value with
  | zero =>
    rw [h.2]
    have hzero : value = 0 := by
      have := h.1
      omega
    rw [hzero]
    rfl
  | succ width ih =>
    have hlt := h.1
    rw [pow_succ] at hlt
    have hbound : 10 ^ width ≤ 10 ^ 8 := Nat.pow_le_pow_right (by omega) (by omega)
    rw [h.2, Decimal.padded, List.foldlM_append,
      @ih _ (value / 10) (by omega) ⟨by omega, rfl⟩]
    have hdigit : (UInt8.ofNat (48 + value % 10)).toNat - 48 = value % 10 := by
      rw [UInt8.toNat_ofNat']
      omega
    simp only [Option.bind_eq_bind, Option.bind_some, List.foldlM_cons, List.foldlM_nil, hdigit]
    rw [if_pos (by omega), if_pos (by omega), Option.bind_some, Nat.div_add_mod']
    rfl

theorem parseDigits_eq_some {field : List UInt8} {value : Nat} (hlength : field.length ≤ 9)
    (h : parseDigits field = some value) : field ∈ Decimal.written field.length value := by
  by_cases hshape : (field.isEmpty || !field.all isAsciiDigit) = true
  · rw [parseDigits, if_pos hshape] at h
    cases h
  · rw [Bool.not_eq_true, Bool.or_eq_false_iff, Bool.not_eq_false', List.all_eq_true,
      List.isEmpty_eq_false_iff] at hshape
    obtain ⟨other, hother⟩ := Decimal.exists_written field hshape.2
    rw [parseDigits_written hlength hother hshape.1] at h
    cases h
    exact hother

theorem decides_digits {field : List UInt8} {width : Nat} {rest : Nat → Option Bool}
    {statement : Nat → Prop} (hwidth : 0 < width) (hsmall : width ≤ 9)
    (hlength : field.length = width) (h : ∀ value, Decides (rest value) (statement value)) :
    Decides (Checked.withDigits field rest)
      (∃ value, field ∈ Decimal.written width value ∧ statement value) := by
  subst hlength
  unfold Checked.withDigits
  cases hparse : parseDigits field with
  | none =>
    refine decides_false ?_
    rintro ⟨value, hwritten, _⟩
    rw [parseDigits_written hsmall hwritten (List.length_pos_iff.mp hwidth)] at hparse
    cases hparse
  | some value =>
    have hwritten := parseDigits_eq_some hsmall hparse
    refine (h value).congr ⟨fun hstatement => ⟨value, hwritten, hstatement⟩, ?_⟩
    rintro ⟨other, hother, hstatement⟩
    rwa [Decimal.padded_injective hwritten.1 hother.1 (hwritten.2.symm.trans hother.2)]

end Digits

section Date

def Checked.validDateBytes (bytes : List UInt8) : Option Bool :=
  if bytes.length != 10 then some false
  else do
    let fourth ← bytes[4]?
    if fourth != 45 then some false
    else
      let seventh ← bytes[7]?
      if seventh != 45 then some false
      else
        let yearDigits ← slice bytes 0 4
        Checked.withDigits yearDigits fun year => do
          let monthDigits ← slice bytes 5 7
          Checked.withDigits monthDigits fun month => do
            let dayDigits ← slice bytes 8 10
            Checked.withDigits dayDigits fun day =>
              if !(decide (1 ≤ month) && decide (month ≤ 12)) then some false
              else some (decide (1 ≤ day) && decide (day ≤ daysInMonth year month))

/-- Every fourth year, but of the full centuries only every fourth. -/
def IsGregorianLeapYear (year : Nat) : Prop := 4 ∣ year ∧ (100 ∣ year → 400 ∣ year)

instance (year : Nat) : Decidable (IsGregorianLeapYear year) :=
  inferInstanceAs (Decidable (4 ∣ year ∧ (100 ∣ year → 400 ∣ year)))

/-- The lengths of the months from January on. -/
def gregorianMonths (year : Nat) : List Nat :=
  [31, if IsGregorianLeapYear year then 29 else 28, 31, 30, 31, 30, 31, 31, 30, 31, 30, 31]

/-- The calendar has this day. The years are counted from 0, as in the text of a date. -/
def IsGregorianDay (year month day : Nat) : Prop :=
  1 ≤ month ∧ 1 ≤ day ∧ ∃ length, (gregorianMonths year)[month - 1]? = some length ∧ day ≤ length

/-- `YYYY-MM-DD` with a day of the calendar -/
def dateGrammar : Language UInt8 :=
  {word | ∃ year month day, IsGregorianDay year month day ∧
    word ∈ Decimal.written 4 year * (letter 45 * (Decimal.written 2 month *
      (letter 45 * Decimal.written 2 day)))}

theorem isLeapYear_iff (year : Nat) : isLeapYear year = true ↔ IsGregorianLeapYear year := by
  simp only [isLeapYear, divisibleBy, IsGregorianLeapYear, Bool.and_eq_true, Bool.or_eq_true,
    Bool.not_eq_true', beq_iff_eq, beq_eq_false_iff_ne, Nat.dvd_iff_mod_eq_zero]
  omega

theorem isGregorianDay_iff (year month day : Nat) :
    IsGregorianDay year month day ↔
      1 ≤ month ∧ month ≤ 12 ∧ 1 ≤ day ∧ day ≤ daysInMonth year month := by
  unfold IsGregorianDay
  by_cases hmonth : 1 ≤ month ∧ month ≤ 12
  · obtain ⟨hlow, hhigh⟩ := hmonth
    interval_cases month <;>
      simp [gregorianMonths, daysInMonth, isLeapYear_iff]
  · constructor
    · rintro ⟨hlow, _, length, hlength, _⟩
      have hhigh : month - 1 < 12 := (List.getElem?_eq_some_iff.mp hlength).1
      exact absurd ⟨hlow, by omega⟩ hmonth
    · rintro ⟨hlow, hhigh, _⟩
      exact absurd ⟨hlow, hhigh⟩ hmonth

/-- The parts of a date stand at fixed places. -/
theorem mem_dateGrammar (bytes : List UInt8) :
    bytes ∈ dateGrammar ↔ ∃ year month day, IsGregorianDay year month day ∧
      bytes.take 4 ∈ Decimal.written 4 year ∧ bytes[4]? = some 45 ∧
        (bytes.drop 5).take 2 ∈ Decimal.written 2 month ∧ bytes[7]? = some 45 ∧
          bytes.drop 8 ∈ Decimal.written 2 day := by
  show (∃ year month day, _) ↔ _
  simp only [mem_fixed_mul fun _ => Decimal.length_of_written, mem_letter_mul_iff, List.drop_drop,
    List.getElem?_drop, Nat.reduceAdd]

theorem length_of_date {bytes : List UInt8} (h : bytes ∈ dateGrammar) : bytes.length = 10 := by
  obtain ⟨year, month, day, _, hword⟩ := h
  exact length_mul (fun _ => Decimal.length_of_written) (length_mul (fun _ => length_letter)
    (length_mul (fun _ => Decimal.length_of_written) (length_mul (fun _ => length_letter)
      fun _ => Decimal.length_of_written))) bytes hword

theorem decides_day (year month day : Nat) :
    Decides (if !(decide (1 ≤ month) && decide (month ≤ 12)) then some false
      else some (decide (1 ≤ day) && decide (day ≤ daysInMonth year month)))
      (IsGregorianDay year month day) := by
  rw [← apply_ite some]
  apply decides_some
  rw [isGregorianDay_iff]
  by_cases hmonth : 1 ≤ month ∧ month ≤ 12
  · simp [hmonth]
  · have hcheck : (!(decide (1 ≤ month) && decide (month ≤ 12))) = true := by
      simp only [Bool.not_eq_true', Bool.and_eq_false_iff, decide_eq_false_iff_not]
      omega
    rw [if_pos hcheck]
    simp only [Bool.false_eq_true, false_iff]
    exact fun h => hmonth ⟨h.1, h.2.1⟩

theorem validDateBytes_decides (bytes : List UInt8) :
    Decides (Checked.validDateBytes bytes) (bytes ∈ dateGrammar) := by
  unfold Checked.validDateBytes
  by_cases hlength : bytes.length = 10
  · have hfourth := List.getElem?_eq_getElem (l := bytes) (i := 4) (by omega)
    have hseventh := List.getElem?_eq_getElem (l := bytes) (i := 7) (by omega)
    rw [if_neg (by simp [hlength]), hfourth, Option.bind_eq_bind, Option.bind_some]
    by_cases hdash : bytes[4] = 45
    · rw [if_neg (by simp [hdash]), hseventh, Option.bind_some]
      by_cases hdash' : bytes[7] = 45
      · have hyear := slice_from_start (l := bytes) (j := 4) (by omega)
        have hmonth := slice_of_le (l := bytes) (i := 5) (j := 7) (by omega) (by omega)
        have hday := slice_to_end (l := bytes) (i := 8) (by omega)
        rw [hlength] at hday
        simp only [hdash', bne_self_eq_false, Bool.false_eq_true, if_false, hyear, hmonth, hday,
          Option.bind_eq_bind, Option.bind_some]
        refine Decides.congr (decides_digits (show 0 < 4 by omega) (by omega) ?_ fun year =>
          decides_digits (show 0 < 2 by omega) (by omega) ?_ fun month =>
          decides_digits (show 0 < 2 by omega) (by omega) ?_ fun day => decides_day year month day) ?_
        · rw [List.length_take]
          omega
        · exact length_field (by omega)
        · rw [List.length_drop]
          omega
        · rw [mem_dateGrammar, hfourth, hdash, hseventh, hdash']
          constructor
          · rintro ⟨year, hyear, month, hmonth, day, hday, hexists⟩
            exact ⟨year, month, day, hexists, hyear, rfl, hmonth, rfl, hday⟩
          · rintro ⟨year, month, day, hexists, hyear, _, hmonth, _, hday⟩
            exact ⟨year, hyear, month, hmonth, day, hday, hexists⟩
      · rw [if_pos (by simp [hdash'])]
        refine decides_false fun h => hdash' ?_
        obtain ⟨_, _, _, _, _, _, _, h, _⟩ := (mem_dateGrammar bytes).mp h
        simpa [hseventh] using h
    · rw [if_pos (by simp [hdash])]
      refine decides_false fun h => hdash ?_
      obtain ⟨_, _, _, _, _, h, _⟩ := (mem_dateGrammar bytes).mp h
      simpa [hfourth] using h
  · rw [if_pos (by simp [hlength])]
    exact decides_false fun h => hlength (length_of_date h)

end Date

section Timestamp

/-- The loop over the digits of the fraction. -/
def Checked.scanDigits (bytes : List UInt8) (position : Nat) : Nat :=
  if (bytes[position]?).any isAsciiDigit then Checked.scanDigits bytes (position + 1) else position
  termination_by bytes.length - position
  decreasing_by
    next hdigit =>
      have hlt : position < bytes.length := by
        by_contra hge
        rw [List.getElem?_eq_none (by omega)] at hdigit
        cases hdigit
      omega

/-- The position behind the fraction, and `none` to return false for a point without digits. -/
def Checked.fractionEnd (bytes : List UInt8) : Option Nat :=
  if bytes[19]? == some 46 then
    let position := Checked.scanDigits bytes 20
    if position == 20 then none else some position
  else some 19

def Checked.validOffset (bytes : List UInt8) (position : Nat) : Option Bool :=
  if bytes[position]? == some 90 then some (position + 1 == bytes.length)
  else if !(bytes[position]? == some 43 || bytes[position]? == some 45)
      || bytes.length != position + 6 || bytes[position + 3]? != some 58 then some false
  else do
    let hourDigits ← slice bytes (position + 1) (position + 3)
    let minuteDigits ← slice bytes (position + 4) (position + 6)
    Checked.withDigits hourDigits fun offsetHour =>
      Checked.withDigits minuteDigits fun offsetMinute =>
        some (decide (offsetHour ≤ 23) && decide (offsetMinute ≤ 59))

def Checked.validTimestamp (bytes : List UInt8) : Option Bool :=
  if decide (bytes.length < 20) || bytes[10]? != some 84 then some false
  else do
    let date ← slice bytes 0 10
    let dateValid ← Checked.validDateBytes date
    if !dateValid then some false
    else if bytes[13]? != some 58 || bytes[16]? != some 58 then some false
    else
      let hourDigits ← slice bytes 11 13
      let minuteDigits ← slice bytes 14 16
      let secondDigits ← slice bytes 17 19
      Checked.withDigits hourDigits fun hour => Checked.withDigits minuteDigits fun minute =>
        Checked.withDigits secondDigits fun second =>
          if decide (23 < hour) || decide (59 < minute) || decide (59 < second) then some false
          else
            match Checked.fractionEnd bytes with
            | none => some false
            | some position => Checked.validOffset bytes position

/-- Two digits of a number up to the bound -/
def twoDigits (bound : Nat) : Language UInt8 :=
  {word | ∃ value, word ∈ Decimal.written 2 value ∧ value ≤ bound}

/-- `Z`, or `+HH:MM` or `-HH:MM` -/
def zoneGrammar : Language UInt8 :=
  letter 90 + (letter 43 + letter 45) * (twoDigits 23 * (letter 58 * twoDigits 59))

/-- `YYYY-MM-DDTHH:MM:SS`, an optional fraction and the zone -/
def timestampGrammar : Language UInt8 :=
  dateGrammar * (letter 84 * (twoDigits 23 * (letter 58 * (twoDigits 59 * (letter 58 *
    (twoDigits 59 * (fractionGrammar * zoneGrammar)))))))

theorem length_of_twoDigits {bound : Nat} {word : List UInt8} (h : word ∈ twoDigits bound) :
    word.length = 2 := by
  obtain ⟨value, hvalue, _⟩ := h
  exact Decimal.length_of_written hvalue

theorem mem_zoneGrammar (zone : List UInt8) :
    zone ∈ zoneGrammar ↔ zone = [90] ∨ (zone[0]? = some 43 ∨ zone[0]? = some 45) ∧
      (zone.drop 1).take 2 ∈ twoDigits 23 ∧ zone[3]? = some 58 ∧ zone.drop 4 ∈ twoDigits 59 := by
  rw [zoneGrammar, Language.mem_add, add_mul, Language.mem_add, mem_letter_mul_iff,
    mem_letter_mul_iff, ← or_and_right, mem_fixed_mul fun _ => length_of_twoDigits,
    mem_letter_mul_iff]
  simp only [List.drop_drop, List.getElem?_drop, Nat.reduceAdd]
  rfl

/-- The loop stops behind the digits. -/
theorem scanDigits_eq (bytes : List UInt8) (position : Nat) :
    Checked.scanDigits bytes position =
      position + ((bytes.drop position).takeWhile isAsciiDigit).length := by
  fun_induction Checked.scanDigits bytes position with
  | case1 position hdigit ih =>
    obtain ⟨byte, hbyte, hdigit⟩ := (Option.any_eq_true _ _).mp hdigit
    obtain ⟨hlt, rfl⟩ := List.getElem?_eq_some_iff.mp hbyte
    rw [ih, List.drop_eq_getElem_cons hlt, List.takeWhile_cons_of_pos hdigit, List.length_cons]
    omega
  | case2 position hdigit =>
    by_cases hlt : position < bytes.length
    · rw [List.getElem?_eq_getElem hlt, Option.any_some] at hdigit
      rw [List.drop_eq_getElem_cons hlt, List.takeWhile_cons_of_neg hdigit, List.length_nil,
        Nat.add_zero]
    · rw [List.drop_eq_nil_of_le (by omega), List.takeWhile_nil, List.length_nil, Nat.add_zero]

/-- A zone starts neither with a digit nor with a point. -/
theorem head_of_zone {zone : List UInt8} (h : zone ∈ zoneGrammar) :
    ∃ first rest, zone = first :: rest ∧ isAsciiDigit first = false ∧ first ≠ 46 := by
  cases zone with
  | nil => simp [mem_zoneGrammar] at h
  | cons first rest =>
    refine ⟨first, rest, rfl, ?_⟩
    obtain h | ⟨h, _⟩ := (mem_zoneGrammar _).mp h
    · rw [(List.cons.inj h).1]
      decide
    · simp only [List.getElem?_cons_zero, Option.some.injEq] at h
      obtain rfl | rfl := h <;> decide

/-- The fraction takes all the digits behind the point. -/
theorem mem_digits_mul_zone (word : List UInt8) :
    word ∈ oneOf isAsciiDigit * digits * zoneGrammar ↔
      (word.takeWhile isAsciiDigit).length ≠ 0 ∧
        word.drop (word.takeWhile isAsciiDigit).length ∈ zoneGrammar := by
  rw [Language.mem_mul]
  constructor
  · rintro ⟨fraction, hfraction, zone, hzone, rfl⟩
    obtain ⟨hne, hall⟩ := mem_oneOf_mul_kstar.mp hfraction
    obtain ⟨first, rest, rfl, hfirst, _⟩ := head_of_zone hzone
    have htake : (fraction ++ first :: rest).takeWhile isAsciiDigit = fraction := by
      rw [List.takeWhile_append_of_pos hall, List.takeWhile_cons_of_neg (by simp [hfirst]),
        List.append_nil]
    rw [htake, List.drop_left]
    exact ⟨fun hzero => hne (List.eq_nil_of_length_eq_zero hzero), hzone⟩
  · rintro ⟨hne, hzone⟩
    refine ⟨word.takeWhile isAsciiDigit, ?_, _, hzone, ?_⟩
    · refine mem_oneOf_mul_kstar.mpr ⟨fun hempty => hne (by rw [hempty]; rfl), ?_⟩
      exact List.all_eq_true.mp List.all_takeWhile
    · have hprefix := List.prefix_iff_eq_take.mp (List.takeWhile_prefix (l := word) isAsciiDigit)
      calc word.takeWhile isAsciiDigit ++ word.drop (word.takeWhile isAsciiDigit).length
          = word.take (word.takeWhile isAsciiDigit).length ++
              word.drop (word.takeWhile isAsciiDigit).length := congrArg (· ++ _) hprefix
        _ = word := List.take_append_drop _ _

theorem mem_fraction_mul_zone (word : List UInt8) :
    word ∈ fractionGrammar * zoneGrammar ↔
      if word[0]? = some 46 then word.drop 1 ∈ oneOf isAsciiDigit * digits * zoneGrammar
      else word ∈ zoneGrammar := by
  rw [fractionGrammar, Grammar.optional, add_mul, one_mul, Language.mem_add, mul_assoc,
    mem_letter_mul_iff]
  by_cases hpoint : word[0]? = some 46
  · rw [if_pos hpoint]
    simp only [hpoint, true_and]
    refine or_iff_right fun hzone => ?_
    obtain ⟨first, rest, rfl, _, hfirst⟩ := head_of_zone hzone
    rw [List.getElem?_cons_zero, Option.some.injEq] at hpoint
    exact hfirst hpoint
  · simp only [hpoint, false_and, or_false, if_false]

theorem fractionEnd_spec {bytes : List UInt8} (h : 19 ≤ bytes.length) :
    match Checked.fractionEnd bytes with
    | none => bytes.drop 19 ∉ fractionGrammar * zoneGrammar
    | some position => position ≤ bytes.length ∧
        (bytes.drop 19 ∈ fractionGrammar * zoneGrammar ↔ bytes.drop position ∈ zoneGrammar) := by
  have hpoint : (bytes.drop 19)[0]? = bytes[19]? := List.getElem?_drop
  rw [mem_fraction_mul_zone, hpoint, mem_digits_mul_zone, List.drop_drop, List.drop_drop]
  unfold Checked.fractionEnd
  by_cases hfraction : bytes[19]? = some 46
  · obtain ⟨hlt, _⟩ := List.getElem?_eq_some_iff.mp hfraction
    have hscan := scanDigits_eq bytes 20
    have hlength := (List.takeWhile_prefix (l := bytes.drop 20) isAsciiDigit).length_le
    rw [List.length_drop] at hlength
    simp only [hfraction, beq_self_eq_true, if_true, hscan, Nat.reduceAdd]
    by_cases hzero : ((bytes.drop 20).takeWhile isAsciiDigit).length = 0
    · simp [hzero]
    · have hsome : (20 + ((bytes.drop 20).takeWhile isAsciiDigit).length == 20) = false := by
        rw [beq_eq_false_iff_ne]
        omega
      simp only [hsome, Bool.false_eq_true, if_false, hzero, ne_eq, not_false_eq_true, true_and, and_true]
      omega
  · have hcheck : (bytes[19]? == some 46) = false := beq_eq_false_iff_ne.mpr hfraction
    simp only [hcheck, hfraction, Bool.false_eq_true, if_false, and_true]
    exact h

theorem mem_zone_of_utc {zone : List UInt8} (h : zone[0]? = some 90) :
    zone ∈ zoneGrammar ↔ zone.length = 1 := by
  cases zone with
  | nil => cases h
  | cons first rest =>
    rw [List.getElem?_cons_zero, Option.some.injEq] at h
    rw [mem_zoneGrammar, h]
    simp

theorem mem_zone_of_offset {zone : List UInt8} (h : zone[0]? ≠ some 90) :
    zone ∈ zoneGrammar ↔
      ((zone[0]? = some 43 ∨ zone[0]? = some 45) ∧ zone.length = 6 ∧ zone[3]? = some 58) ∧
        (zone.drop 1).take 2 ∈ twoDigits 23 ∧ zone.drop 4 ∈ twoDigits 59 := by
  rw [mem_zoneGrammar]
  constructor
  · rintro (rfl | ⟨hsign, hhour, hcolon, hminute⟩)
    · exact absurd rfl h
    · have hlength := length_of_twoDigits hminute
      rw [List.length_drop] at hlength
      exact ⟨⟨hsign, by omega, hcolon⟩, hhour, hminute⟩
  · rintro ⟨⟨hsign, _, hcolon⟩, hhour, hminute⟩
    exact .inr ⟨hsign, hhour, hcolon, hminute⟩

theorem validOffset_decides {bytes : List UInt8} {position : Nat} (h : position ≤ bytes.length) :
    Decides (Checked.validOffset bytes position) (bytes.drop position ∈ zoneGrammar) := by
  have hfirst : (bytes.drop position)[0]? = bytes[position]? := List.getElem?_drop
  have hlength : (bytes.drop position).length = bytes.length - position := List.length_drop
  unfold Checked.validOffset
  by_cases hutc : bytes[position]? = some 90
  · rw [if_pos (beq_iff_eq.mpr hutc), mem_zone_of_utc (hfirst.trans hutc), hlength]
    apply decides_some
    rw [beq_iff_eq]
    omega
  · have hcolon : (bytes.drop position)[3]? = bytes[position + 3]? := List.getElem?_drop
    have hsix : bytes.length - position = 6 ↔ bytes.length = position + 6 := by omega
    rw [if_neg (by simpa using hutc), mem_zone_of_offset (hfirst ▸ hutc), hfirst, hlength, hsix,
      hcolon, List.drop_drop, List.drop_drop]
    have hshape : (!(bytes[position]? == some 43 || bytes[position]? == some 45)
        || bytes.length != position + 6 || bytes[position + 3]? != some 58) = false ↔
        (bytes[position]? = some 43 ∨ bytes[position]? = some 45) ∧
          bytes.length = position + 6 ∧ bytes[position + 3]? = some 58 := by
      simp only [Bool.or_eq_false_iff, Bool.not_eq_false', Bool.or_eq_true, beq_iff_eq,
        bne_eq_false_iff_eq, and_assoc]
    rw [← hshape]
    cases hcheck : (!(bytes[position]? == some 43 || bytes[position]? == some 45)
        || bytes.length != position + 6 || bytes[position + 3]? != some 58) with
    | true =>
      rw [if_pos rfl]
      exact decides_false fun hboth => by cases hboth.1
    | false =>
      obtain ⟨_, hend, _⟩ := hshape.mp hcheck
      have hhour := slice_of_le (l := bytes) (i := position + 1) (j := position + 3)
        (by omega) (by omega)
      have hminute := slice_to_end (l := bytes) (i := position + 4) (by omega)
      have htwo : position + 3 - (position + 1) = 2 := by omega
      rw [hend] at hminute
      rw [htwo] at hhour
      simp only [Bool.false_eq_true, if_false, hhour, hminute, Option.bind_eq_bind,
        Option.bind_some, true_and]
      refine (decides_digits (show 0 < 2 by omega) (by omega) (length_field (by omega)) fun hour =>
        decides_digits (show 0 < 2 by omega) (by omega) ?_ fun minute =>
        decides_some Bool.and_eq_true_iff).congr ?_
      · rw [List.length_drop]
        omega
      · simp only [decide_eq_true_eq]
        constructor
        · rintro ⟨hour, hhour, minute, hminute, hsmall, hsmall'⟩
          exact ⟨⟨hour, hhour, hsmall⟩, minute, hminute, hsmall'⟩
        · rintro ⟨⟨hour, hhour, hsmall⟩, minute, hminute, hsmall'⟩
          exact ⟨hour, hhour, minute, hminute, hsmall, hsmall'⟩

/-- The parts of a timestamp stand at fixed places, but for the fraction and the zone. -/
theorem mem_timestampGrammar (bytes : List UInt8) :
    bytes ∈ timestampGrammar ↔ bytes.take 10 ∈ dateGrammar ∧ bytes[10]? = some 84 ∧
      (bytes.drop 11).take 2 ∈ twoDigits 23 ∧ bytes[13]? = some 58 ∧
        (bytes.drop 14).take 2 ∈ twoDigits 59 ∧ bytes[16]? = some 58 ∧
          (bytes.drop 17).take 2 ∈ twoDigits 59 ∧
            bytes.drop 19 ∈ fractionGrammar * zoneGrammar := by
  simp only [timestampGrammar, mem_fixed_mul fun _ => length_of_date,
    mem_fixed_mul fun _ => length_of_twoDigits, mem_letter_mul_iff, List.drop_drop,
    List.getElem?_drop, Nat.reduceAdd]

theorem length_of_timestamp {bytes : List UInt8} (h : bytes ∈ timestampGrammar) :
    20 ≤ bytes.length := by
  obtain ⟨_, _, _, _, _, _, _, htail⟩ := (mem_timestampGrammar bytes).mp h
  by_contra hshort
  rw [List.drop_eq_nil_of_le (by omega), mem_fraction_mul_zone, if_neg (by simp)] at htail
  obtain ⟨_, _, heq, _⟩ := head_of_zone htail
  cases heq

/-- What is left to decide once the clock was read. -/
theorem decides_clock {bytes : List UInt8} (hlength : 19 ≤ bytes.length) (hour minute second : Nat) :
    Decides (if decide (23 < hour) || decide (59 < minute) || decide (59 < second) then some false
      else
        match Checked.fractionEnd bytes with
        | none => some false
        | some position => Checked.validOffset bytes position)
      (hour ≤ 23 ∧ minute ≤ 59 ∧ second ≤ 59 ∧ bytes.drop 19 ∈ fractionGrammar * zoneGrammar) := by
  by_cases hclock : hour ≤ 23 ∧ minute ≤ 59 ∧ second ≤ 59
  · have hcheck : (decide (23 < hour) || decide (59 < minute) || decide (59 < second)) = false := by
      simp only [Bool.or_eq_false_iff, decide_eq_false_iff_not]
      omega
    have hfraction := fractionEnd_spec hlength
    rw [hcheck, if_neg (by simp)]
    simp only [hclock, true_and]
    cases hend : Checked.fractionEnd bytes with
    | none =>
      rw [hend] at hfraction
      exact decides_false hfraction
    | some position =>
      rw [hend] at hfraction
      exact (validOffset_decides hfraction.1).congr hfraction.2.symm
  · have hcheck : (decide (23 < hour) || decide (59 < minute) || decide (59 < second)) = true := by
      simp only [Bool.or_eq_true, decide_eq_true_eq]
      omega
    rw [hcheck, if_pos rfl]
    exact decides_false fun h => hclock ⟨h.1, h.2.1, h.2.2.1⟩

theorem validTimestamp_decides (bytes : List UInt8) :
    Decides (Checked.validTimestamp bytes) (bytes ∈ timestampGrammar) := by
  unfold Checked.validTimestamp
  by_cases hlong : 20 ≤ bytes.length ∧ bytes[10]? = some 84
  · obtain ⟨hlength, hseparator⟩ := hlong
    obtain ⟨accepted, haccepted, hdate⟩ := validDateBytes_decides (bytes.take 10)
    have hnot : ¬ bytes.length < 20 := by omega
    simp only [hnot, decide_false, hseparator, bne_self_eq_false, Bool.or_false, Bool.false_eq_true,
      if_false, slice_from_start (l := bytes) (j := 10) (by omega), haccepted,
      Option.bind_eq_bind, Option.bind_some]
    cases accepted with
    | false =>
      refine decides_false fun h => ?_
      cases hdate.mpr ((mem_timestampGrammar bytes).mp h).1
    | true =>
      simp only [Bool.not_true, Bool.false_eq_true, if_false]
      by_cases hcolons : bytes[13]? = some 58 ∧ bytes[16]? = some 58
      · simp only [hcolons.1, hcolons.2, bne_self_eq_false, Bool.or_false, Bool.false_eq_true,
          if_false, slice_of_le (l := bytes) (show 11 ≤ 13 by omega) (by omega),
          slice_of_le (l := bytes) (show 14 ≤ 16 by omega) (by omega),
          slice_of_le (l := bytes) (show 17 ≤ 19 by omega) (by omega), Nat.reduceSub,
          Option.bind_some]
        refine (decides_digits (show 0 < 2 by omega) (by omega) (length_field (by omega)) fun hour =>
          decides_digits (show 0 < 2 by omega) (by omega) (length_field (by omega)) fun minute =>
          decides_digits (show 0 < 2 by omega) (by omega) (length_field (by omega)) fun second =>
          decides_clock (by omega) hour minute second).congr ?_
        rw [mem_timestampGrammar, hseparator, hcolons.1, hcolons.2]
        constructor
        · rintro ⟨hour, hhour, minute, hminute, second, hsecond, h₁, h₂, h₃, htail⟩
          exact ⟨hdate.mp rfl, rfl, ⟨hour, hhour, h₁⟩, rfl, ⟨minute, hminute, h₂⟩, rfl,
            ⟨second, hsecond, h₃⟩, htail⟩
        · rintro ⟨_, _, ⟨hour, hhour, h₁⟩, _, ⟨minute, hminute, h₂⟩, _, ⟨second, hsecond, h₃⟩, htail⟩
          exact ⟨hour, hhour, minute, hminute, second, hsecond, h₁, h₂, h₃, htail⟩
      · rw [if_pos (by simpa [imp_iff_not_or] using hcolons)]
        refine decides_false fun h => hcolons ?_
        obtain ⟨_, _, _, hcolon, _, hcolon', _⟩ := (mem_timestampGrammar bytes).mp h
        exact ⟨hcolon, hcolon'⟩
  · have hcheck : (decide (bytes.length < 20) || bytes[10]? != some 84) = true := by
      rw [Bool.or_eq_true, decide_eq_true_eq, bne_iff_ne]
      by_contra hneither
      rw [not_or, not_lt, not_not] at hneither
      exact hlong hneither
    rw [if_pos hcheck]
    refine decides_false fun h => hlong ⟨length_of_timestamp h, ?_⟩
    exact ((mem_timestampGrammar bytes).mp h).2.1

end Timestamp

/-- Each check reaches an answer on every byte string, so no slice and no index is out of range, and
it accepts exactly its grammar. -/
theorem typedLiterals_decide (bytes : List UInt8) :
    Decides (Checked.validNumeric bytes) (bytes ∈ numericGrammar) ∧
      Decides (Checked.validDateBytes bytes) (bytes ∈ dateGrammar) ∧
      Decides (Checked.validTimestamp bytes) (bytes ∈ timestampGrammar) :=
  ⟨validNumeric_decides bytes, validDateBytes_decides bytes, validTimestamp_decides bytes⟩

section Agreement

/-- The end of the integer lies within the bytes. -/
theorem integerEnd_le (unsigned : List UInt8) :
    (unsigned.idxOf? 46).getD unsigned.length ≤ unsigned.length := by
  cases hpoint : unsigned.idxOf? 46 with
  | none => exact le_refl _
  | some position =>
    obtain ⟨hlt, _⟩ := List.idxOf?_eq_some_iff.mp hpoint
    exact hlt.le

theorem validNumeric_eq (value : String) :
    Checked.validNumeric (bytesOf value) = some (validNumeric value) := by
  unfold Checked.validNumeric validNumeric
  generalize bytesOf value = bytes
  cases bytes with
  | nil => rfl
  | cons first rest =>
    have hsign : (some first == some 45) = (first == 45) := rfl
    have hstart : (if first == 45 then 1 else 0) ≤ (first :: rest).length := by
      rw [List.length_cons]
      split <;> omega
    simp only [List.isEmpty_cons, Bool.false_eq_true, if_false, hsign, List.getElem?_cons_zero,
      Option.bind_eq_bind, Option.bind_some, slice_to_end hstart]
    generalize (if first == 45 then 1 else 0) = start
    by_cases hempty : (start == (first :: rest).length) = true
    · rw [if_pos hempty, if_pos hempty]
    · rw [if_neg hempty, if_neg hempty]
      generalize (first :: rest).drop start = unsigned
      have hend := integerEnd_le unsigned
      unfold Checked.validUnsigned
      simp only [slice_from_start hend, Option.bind_eq_bind, Option.bind_some]
      have hpoint : unsigned.findIdx? (· == 46) = unsigned.idxOf? 46 := rfl
      rw [hpoint]
      generalize (unsigned.idxOf? 46).getD unsigned.length = integerEnd at hend ⊢
      by_cases hshape : (unsigned.take integerEnd).isEmpty = true ∨
          (unsigned.take integerEnd).all isAsciiDigit = false
      · have hcheck : ((unsigned.take integerEnd).isEmpty ||
            !(unsigned.take integerEnd).all isAsciiDigit) = true := by
          simpa using hshape
        simp only [hcheck, Bool.true_or, if_true]
      · have hcheck : ((unsigned.take integerEnd).isEmpty ||
            !(unsigned.take integerEnd).all isAsciiDigit) = false := by
          simpa using hshape
        have hne : unsigned.take integerEnd ≠ [] := by
          rw [not_or, Bool.not_eq_true, List.isEmpty_eq_false_iff] at hshape
          exact hshape.1
        have hzero : (decide (1 < (unsigned.take integerEnd).length) &&
            (unsigned.take integerEnd)[0]? == some 48) =
            decide (1 < (unsigned.take integerEnd).length ∧
              (unsigned.take integerEnd)[0]? = some 48) := by
          rw [Bool.eq_iff_iff, Bool.and_eq_true, decide_eq_true_eq, decide_eq_true_eq, beq_iff_eq]
        simp only [hcheck, Bool.false_or, Bool.false_eq_true, if_false, leadingZero_eq hne, hzero,
          Option.bind_some]
        by_cases hlast : (integerEnd == unsigned.length) = true
        · rw [if_pos hlast, if_pos hlast, apply_ite some]
        · have hlt : integerEnd + 1 ≤ unsigned.length := by
            rw [beq_iff_eq] at hlast
            omega
          rw [if_neg hlast, if_neg hlast, slice_to_end hlt, Option.bind_some, apply_ite some]

theorem validDateBytes_eq (bytes : List UInt8) :
    Checked.validDateBytes bytes = some (Postgresem.validDateBytes bytes) := by
  unfold Checked.validDateBytes Postgresem.validDateBytes
  by_cases hlength : bytes.length = 10
  · have hfourth := List.getElem?_eq_getElem (l := bytes) (i := 4) (by omega)
    have hseventh := List.getElem?_eq_getElem (l := bytes) (i := 7) (by omega)
    have hyear := slice_from_start (l := bytes) (j := 4) (by omega)
    have hmonth := slice_of_le (l := bytes) (i := 5) (j := 7) (by omega) (by omega)
    have hday := slice_of_le (l := bytes) (i := 8) (j := 10) (by omega) (by omega)
    simp only [hlength, hfourth, hseventh, hyear, hmonth, hday, bne_self_eq_false,
      Bool.false_eq_true, if_false, Option.bind_eq_bind, Option.bind_some, Bool.false_or,
      Nat.reduceSub, Checked.withDigits]
    by_cases hdash : bytes[4] = 45
    · by_cases hdash' : bytes[7] = 45
      · simp only [hdash, hdash', bne_self_eq_false, Bool.false_eq_true, if_false, Bool.or_self]
        cases parseDigits (bytes.take 4) with
        | none => rfl
        | some year =>
          cases parseDigits ((bytes.drop 5).take 2) with
          | none => rfl
          | some month =>
            cases parseDigits ((bytes.drop 8).take 2) with
            | none => rfl
            | some day => exact (apply_ite some _ _ _).symm
      · simp [hdash, hdash']
    · simp [hdash]
  · simp [hlength]

theorem fractionEnd_eq (bytes : List UInt8) :
    Checked.fractionEnd bytes = Postgresem.fractionEnd bytes := by
  unfold Checked.fractionEnd Postgresem.fractionEnd
  have hzero : (20 + ((bytes.drop 20).takeWhile isAsciiDigit).length == 20) =
      (((bytes.drop 20).takeWhile isAsciiDigit).length == 0) := by
    rw [Bool.eq_iff_iff, beq_iff_eq, beq_iff_eq]
    omega
  simp only [scanDigits_eq, hzero]

theorem validOffset_eq (bytes : List UInt8) (position : Nat) :
    Checked.validOffset bytes position = some (Postgresem.validOffset bytes position) := by
  unfold Checked.validOffset Postgresem.validOffset
  rw [apply_ite some, apply_ite some]
  congr 1
  by_cases hlength : bytes.length = position + 6
  · have hhour := slice_of_le (l := bytes) (i := position + 1) (j := position + 3)
      (by omega) (by omega)
    have hminute := slice_of_le (l := bytes) (i := position + 4) (j := position + 6)
      (by omega) (by omega)
    have htwo : position + 3 - (position + 1) = 2 := by omega
    have htwo' : position + 6 - (position + 4) = 2 := by omega
    simp only [hhour, hminute, htwo, htwo', Option.bind_eq_bind, Option.bind_some,
      Checked.withDigits]
    congr 2
    cases parseDigits ((bytes.drop (position + 1)).take 2) with
    | none => rfl
    | some offsetHour =>
      cases parseDigits ((bytes.drop (position + 4)).take 2) with
      | none => rfl
      | some offsetMinute => rfl
  · have hcheck : (bytes.length != position + 6) = true := bne_iff_ne.mpr hlength
    rw [hcheck, Bool.or_true, Bool.true_or, if_pos rfl, if_pos rfl]

theorem validTimestamp_eq (value : String) :
    Checked.validTimestamp (bytesOf value) = some (Postgresem.validTimestamp value) := by
  unfold Checked.validTimestamp Postgresem.validTimestamp
  generalize bytesOf value = bytes
  by_cases hlong : bytes.length < 20
  · simp [hlong]
  · simp only [hlong, decide_false, Bool.false_or,
      slice_from_start (l := bytes) (j := 10) (by omega), validDateBytes_eq,
      slice_of_le (l := bytes) (show 11 ≤ 13 by omega) (by omega),
      slice_of_le (l := bytes) (show 14 ≤ 16 by omega) (by omega),
      slice_of_le (l := bytes) (show 17 ≤ 19 by omega) (by omega), Nat.reduceSub,
      Option.bind_eq_bind, Option.bind_some, Checked.withDigits, fractionEnd_eq, validOffset_eq]
    cases bytes[10]? != some 84 with
    | true => rfl
    | false =>
      cases Postgresem.validDateBytes (bytes.take 10) with
      | false => rfl
      | true =>
        cases bytes[13]? != some 58 || bytes[16]? != some 58 with
        | true => rfl
        | false =>
          cases parseDigits ((bytes.drop 11).take 2) with
          | none => rfl
          | some hour =>
            cases parseDigits ((bytes.drop 14).take 2) with
            | none => rfl
            | some minute =>
              cases parseDigits ((bytes.drop 17).take 2) with
              | none => rfl
              | some second =>
                cases Postgresem.fractionEnd bytes with
                | none => exact (apply_ite some _ _ _).symm
                | some position => exact (apply_ite some _ _ _).symm

/-- A literal is well formed exactly when its text is a word of its grammar. -/
theorem isWellFormed_iff (literal : Literal) :
    literal.isWellFormed = true ↔
      match literal with
      | .text _ | .boolean _ | .integer _ => True
      | .numeric value => bytesOf value ∈ numericGrammar
      | .date value => bytesOf value ∈ dateGrammar
      | .timestamp value => bytesOf value ∈ timestampGrammar := by
  cases literal with
  | text value | boolean value | integer value => simp [Literal.isWellFormed]
  | numeric value => exact (validNumeric_decides (bytesOf value)).iff (validNumeric_eq value)
  | date value =>
    exact (validDateBytes_decides (bytesOf value)).iff (validDateBytes_eq (bytesOf value))
  | timestamp value => exact (validTimestamp_decides (bytesOf value)).iff (validTimestamp_eq value)

end Agreement

end Postgresem

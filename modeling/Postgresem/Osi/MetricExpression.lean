import Postgresem.Catalog.Types
import Postgresem.Foundation.Trim
import Postgresem.Query.Lsq

/-! The text of a metric in an OSI document: what the exporter writes, what the importer reads, and
the texts that spell one metric. -/
namespace Postgresem.Osi
open Text

structure ParsedMetric where
  aggregation : Aggregation
  dataset : String
  field : String
  deriving DecidableEq, Repr

/-- `eq_ignore_ascii_case` against a keyword in lower case. -/
def isKeyword (keyword : String) (chars : List Char) : Bool :=
  chars.map Char.toLower == keyword.toList

def trim (chars : List Char) : List Char := trimMatches isWhitespace chars

/-- The argument without its `DISTINCT`, and whether it had one. -/
def splitDistinct (argument : List Char) : Option (Bool × List Char) :=
  if isKeyword "distinct" (argument.take 8) then
    if (argument[8]?).any isAsciiWhitespace then some (true, trim (argument.drop 8)) else none
  else some (false, argument)

def parseAggregation (function : List Char) (distinct : Bool) : Option Aggregation :=
  if isKeyword "count" function then some (if distinct then .countDistinct else .count)
  else if distinct then none
  else if isKeyword "sum" function then some .sum
  else if isKeyword "min" function then some .min
  else if isKeyword "max" function then some .max
  else if isKeyword "avg" function then some .avg
  else none

def parseMetricExpression (expression : String) : Option ParsedMetric := do
  let expression := trim expression.toList
  let (function, rest) ← splitOnce '(' expression
  if expression.getLast? ≠ some ')' then none
  else do
    let (distinct, argument) ← splitDistinct (trim rest.dropLast)
    let (dataset, field) ← splitOnce '.' argument
    if '.' ∈ field || !portableIdentifier (String.ofList dataset)
        || !portableIdentifier (String.ofList field) then none
    else do
      let aggregation ← parseAggregation (trim function) distinct
      some ⟨aggregation, String.ofList dataset, String.ofList field⟩

/-- The function and the modifier of an exported metric. -/
def exportedFunction : Aggregation → String × String
  | .count => ("COUNT", "")
  | .countDistinct => ("COUNT", "DISTINCT ")
  | .sum => ("SUM", "")
  | .min => ("MIN", "")
  | .max => ("MAX", "")
  | .avg => ("AVG", "")

def metricExpression (aggregation : Aggregation) (dataset field : String) : String :=
  (exportedFunction aggregation).1 ++ "(" ++ (exportedFunction aggregation).2 ++ dataset ++ "."
    ++ field ++ ")"

/-! ## The texts of a metric -/

def functionName : Aggregation → String
  | .count | .countDistinct => "count"
  | .sum => "sum"
  | .min => "min"
  | .max => "max"
  | .avg => "avg"

def Blank (chars : List Char) : Prop := ∀ c ∈ chars, isWhitespace c = true

/-- What stands before the dataset: the keyword and a gap, for a distinct count only. -/
inductive Qualifies : Aggregation → List Char → Prop
  | plain {aggregation : Aggregation} (h : aggregation ≠ .countDistinct) : Qualifies aggregation []
  | distinct {keyword : List Char} {first : Char} {gap : List Char}
      (hkeyword : isKeyword "distinct" keyword = true) (hfirst : isAsciiWhitespace first = true)
      (hgap : Blank gap) : Qualifies .countDistinct (keyword ++ first :: gap)

/-- The name of a field after its dataset. -/
def qualified (metric : ParsedMetric) : List Char :=
  metric.dataset.toList ++ '.' :: metric.field.toList

def Portable (metric : ParsedMetric) : Prop :=
  portableIdentifier metric.dataset = true ∧ portableIdentifier metric.field = true

/-- `<function> ( <qualifier> <dataset>.<field> )`, with blanks around its parts and letters of any
case in its keywords. -/
inductive Spells : List Char → ParsedMetric → Prop
  | intro {lead function between inside qualifier after trail : List Char} {metric : ParsedMetric}
      (hportable : Portable metric)
      (hfunction : isKeyword (functionName metric.aggregation) function = true)
      (hqualifier : Qualifies metric.aggregation qualifier) (hlead : Blank lead)
      (hbetween : Blank between) (hinside : Blank inside) (hafter : Blank after)
      (htrail : Blank trail) :
      Spells (lead ++ (function ++ between ++ '(' ::
        (inside ++ (qualifier ++ qualified metric ++ after) ++ [')']) ++ trail)) metric

/-- A name that the parser takes for the keyword. -/
def startsDistinct (name : String) : Bool := isKeyword "distinct" (name.toList.take 8)

/-! ## Characters -/

theorem continuesIdentifier_cases {c : Char} (h : continuesIdentifier c = true) :
    (48 ≤ c.toNat ∧ c.toNat ≤ 57) ∨ (65 ≤ c.toNat ∧ c.toNat ≤ 90) ∨
      (97 ≤ c.toNat ∧ c.toNat ≤ 122) ∨ c.toNat = 95 := by
  have halpha : c.isAlpha = (c.isUpper || c.isLower) := rfl
  have hupper : c.isUpper = decide ('A'.val ≤ c.val ∧ c.val ≤ 'Z'.val) := rfl
  have hlower : c.isLower = (decide ('a'.val ≤ c.val) && decide (c.val ≤ 'z'.val)) := rfl
  simp only [continuesIdentifier, Char.isAlphanum, halpha, hupper, hlower,
    Char.isDigit, Bool.or_eq_true, decide_eq_true_eq, beq_iff_eq, ge_iff_le, UInt32.le_iff_toNat_le,
    Bool.and_eq_true] at h
  have hnat : c.toNat = c.val.toNat := rfl
  have hunderscore : c = '_' → c.toNat = 95 := by
    rintro rfl
    rfl
  rcases h with ((⟨hlow, hhigh⟩ | ⟨hlow, hhigh⟩) | ⟨hlow, hhigh⟩) | hsame
  · exact .inr (.inl ⟨hlow, hhigh⟩)
  · exact .inr (.inr (.inl ⟨hlow, hhigh⟩))
  · exact .inl ⟨hlow, hhigh⟩
  · exact .inr (.inr (.inr (hunderscore hsame)))

/-- A character of an identifier is no blank and no mark of the syntax. -/
theorem plain_of_continues {c : Char} (h : continuesIdentifier c = true) :
    isWhitespace c = false ∧ isAsciiWhitespace c = false ∧ c ≠ '(' ∧ c ≠ '.' := by
  have hcases := continuesIdentifier_cases h
  have hne : ∀ d : Char, c = d → c.toNat = d.toNat := by
    rintro d rfl
    rfl
  refine ⟨?_, ?_, ?_, ?_⟩
  · simp only [isWhitespace, Bool.or_eq_false_iff, Bool.and_eq_false_iff, decide_eq_false_iff_not,
      beq_eq_false_iff_ne]
    omega
  · have hspace : c ≠ ' ' ∧ c ≠ '\t' ∧ c ≠ '\n' ∧ c ≠ '\r' := by
      refine ⟨?_, ?_, ?_, ?_⟩ <;>
      · intro heq
        have hcode := hne _ heq
        simp only [Char.reduceToNat] at hcode
        omega
    simp only [isAsciiWhitespace, Bool.or_eq_false_iff, beq_eq_false_iff_ne]
    exact ⟨⟨⟨⟨hspace.1, hspace.2.1⟩, hspace.2.2.1⟩, hspace.2.2.2⟩, by omega⟩
  · intro heq
    have hcode := hne _ heq
    simp only [Char.reduceToNat] at hcode
    omega
  · intro heq
    have hcode := hne _ heq
    simp only [Char.reduceToNat] at hcode
    omega

theorem continues_of_toLower {c : Char} (h : c.toLower.isAlpha = true) :
    continuesIdentifier c = true := by
  have halpha : c.isAlpha = true := by
    unfold Char.toLower at h
    split at h
    next hupper =>
      have hletter : c.isUpper = true := decide_eq_true hupper
      exact Bool.or_eq_true_iff.mpr (.inl hletter)
    next => exact h
  simp [continuesIdentifier, Char.isAlphanum, halpha]

theorem continues_of_isKeyword {keyword : String} (hletters : ∀ c ∈ keyword.toList, c.isAlpha = true)
    {chars : List Char} (h : isKeyword keyword chars = true) :
    ∀ c ∈ chars, continuesIdentifier c = true := by
  intro c hc
  rw [isKeyword, beq_iff_eq] at h
  refine continues_of_toLower (hletters _ ?_)
  rw [← h]
  exact List.mem_map_of_mem hc

theorem length_of_isKeyword {keyword : String} {chars : List Char}
    (h : isKeyword keyword chars = true) : chars.length = keyword.toList.length := by
  rw [isKeyword, beq_iff_eq] at h
  rw [← h, List.length_map]

theorem functionName_letters (aggregation : Aggregation) :
    (functionName aggregation).toList ≠ [] ∧
      ∀ c ∈ (functionName aggregation).toList, c.isAlpha = true := by
  rw [← List.all_eq_true]
  cases aggregation <;> decide

theorem Blank.notMem {chars : List Char} (h : Blank chars) {c : Char} (hc : isWhitespace c = false) :
    c ∉ chars := by
  intro hmem
  rw [h c hmem] at hc
  cases hc

theorem trimmed_of_ends {first last : List Char} (hfirst : first ≠ [])
    (hfirsts : ∀ c ∈ first, isWhitespace c = false) (middle : List Char) (hlast : last ≠ [])
    (hlasts : ∀ c ∈ last, isWhitespace c = false) :
    Trimmed isWhitespace (first ++ (middle ++ last)) := by
  constructor
  · intro c hc
    rw [List.head?_append_of_ne_nil _ hfirst] at hc
    exact hfirsts c (List.mem_of_head? hc)
  · intro c hc
    rw [← List.append_assoc, List.getLast?_append_of_ne_nil _ hlast] at hc
    exact hlasts c (List.mem_of_getLast? hc)

theorem isWhitespace_of_ascii {c : Char} (h : isAsciiWhitespace c = true) :
    isWhitespace c = true := by
  simp only [isAsciiWhitespace, Bool.or_eq_true, beq_iff_eq] at h
  rcases h with (((rfl | rfl) | rfl) | rfl) | hcode
  · decide
  · decide
  · decide
  · decide
  · simp [isWhitespace, hcode]

/-! ## Reading a spelled metric -/

theorem distinct_letters : ∀ c ∈ "distinct".toList, c.isAlpha = true := by
  rw [← List.all_eq_true]
  decide

/-- Whether the argument seems to begin with the keyword is a matter of the dataset. -/
theorem isKeyword_qualified (metric : ParsedMetric) :
    isKeyword "distinct" ((qualified metric).take 8) = startsDistinct metric.dataset := by
  rw [qualified, startsDistinct]
  by_cases hlength : 8 ≤ metric.dataset.toList.length
  · rw [List.take_append_of_le_length hlength]
  · have hshort : isKeyword "distinct" (metric.dataset.toList.take 8) = false := by
      rw [← Bool.not_eq_true]
      intro hkeyword
      have hsize := length_of_isKeyword hkeyword
      have hdistinct : "distinct".toList.length = 8 := rfl
      rw [List.length_take, hdistinct] at hsize
      omega
    rw [hshort, ← Bool.not_eq_true]
    intro hkeyword
    -- The dot is among the first characters, and it is no letter.
    have hdot : '.' ∈ (metric.dataset.toList ++ '.' :: metric.field.toList).take 8 := by
      rw [List.take_append, List.mem_append]
      right
      obtain ⟨rest, hrest⟩ : ∃ rest, 8 - metric.dataset.toList.length = rest + 1 :=
        Nat.exists_eq_succ_of_ne_zero (by omega)
      rw [hrest, List.take_succ_cons]
      exact List.mem_cons_self
    exact (plain_of_continues (continues_of_isKeyword distinct_letters hkeyword _ hdot)).2.2.2 rfl

section Portable
variable {metric : ParsedMetric} (h : Portable metric)
include h

theorem Portable.dataset_chars : ∀ c ∈ metric.dataset.toList, isWhitespace c = false ∧
    isAsciiWhitespace c = false ∧ c ≠ '(' ∧ c ≠ '.' :=
  fun c hc => plain_of_continues ((portableIdentifier_all h.1).2 c hc)

theorem Portable.field_chars : ∀ c ∈ metric.field.toList, isWhitespace c = false ∧
    isAsciiWhitespace c = false ∧ c ≠ '(' ∧ c ≠ '.' :=
  fun c hc => plain_of_continues ((portableIdentifier_all h.2).2 c hc)

theorem Portable.splitOnce_qualified : splitOnce '.' (qualified metric) =
    some (metric.dataset.toList, metric.field.toList) := by
  apply splitOnce_append
  intro hdot
  exact (h.dataset_chars '.' hdot).2.2.2 rfl

theorem Portable.trimmed_qualified : Trimmed isWhitespace (qualified metric) := by
  have htrimmed := trimmed_of_ends (portableIdentifier_all h.1).1
    (fun c hc => (h.dataset_chars c hc).1) ['.'] (portableIdentifier_all h.2).1
    (fun c hc => (h.field_chars c hc).1)
  exact htrimmed

theorem Portable.splitDistinct_qualified : splitDistinct (qualified metric) =
    if startsDistinct metric.dataset then none else some (false, qualified metric) := by
  rw [splitDistinct, isKeyword_qualified]
  by_cases hstarts : startsDistinct metric.dataset = true
  · have hnext : ((qualified metric)[8]?).any isAsciiWhitespace = false := by
      rw [← Bool.not_eq_true, Option.any_eq_true]
      rintro ⟨c, hc, hspace⟩
      have hmem := List.mem_of_getElem? hc
      rw [qualified, List.mem_append, List.mem_cons] at hmem
      have hplain : isAsciiWhitespace c = false := by
        rcases hmem with hdataset | rfl | hfield
        · exact (h.dataset_chars c hdataset).2.1
        · decide
        · exact (h.field_chars c hfield).2.1
      rw [hplain] at hspace
      cases hspace
    rw [if_pos hstarts, if_pos hstarts, hnext]
    rfl
  · rw [if_neg hstarts, if_neg hstarts]

theorem Portable.splitDistinct_keyword {keyword gap : List Char} {first : Char}
    (hkeyword : isKeyword "distinct" keyword = true) (hfirst : isAsciiWhitespace first = true)
    (hgap : Blank gap) :
    splitDistinct (keyword ++ first :: gap ++ qualified metric) = some (true, qualified metric) := by
  have hlength : keyword.length = 8 := length_of_isKeyword hkeyword
  have htake : (keyword ++ first :: gap ++ qualified metric).take 8 = keyword := by
    rw [List.append_assoc, List.take_left' hlength]
  have hdrop : (keyword ++ first :: gap ++ qualified metric).drop 8 =
      first :: gap ++ qualified metric := by
    rw [List.append_assoc, List.drop_left' hlength]
  have hnext : (keyword ++ first :: gap ++ qualified metric)[8]? = some first := by
    rw [List.append_assoc, List.getElem?_append_right (by omega), hlength]
    rfl
  have hblank : ∀ c ∈ first :: gap, isWhitespace c = true :=
    List.forall_mem_cons.mpr ⟨isWhitespace_of_ascii hfirst, hgap⟩
  have htrim : trim (first :: gap ++ qualified metric) = qualified metric := by
    have hpadded := trimMatches_padded hblank h.trimmed_qualified
      (fun c hc => absurd hc List.not_mem_nil)
    rwa [List.append_nil] at hpadded
  rw [splitDistinct, htake, hkeyword, if_pos rfl, hnext, Option.any_some, hfirst, if_pos rfl, hdrop,
    htrim]

end Portable

theorem parseAggregation_functionName {aggregation : Aggregation} {function : List Char}
    (h : isKeyword (functionName aggregation) function = true) :
    parseAggregation function (decide (aggregation = .countDistinct)) = some aggregation := by
  rw [isKeyword, beq_iff_eq] at h
  simp only [parseAggregation, isKeyword, h]
  cases aggregation <;> rfl

/-- The argument of a spelled metric, without its qualifier. -/
theorem splitDistinct_spelled {metric : ParsedMetric} (h : Portable metric) {qualifier : List Char}
    (hqualifier : Qualifies metric.aggregation qualifier) :
    splitDistinct (qualifier ++ qualified metric) =
      if metric.aggregation ≠ .countDistinct ∧ startsDistinct metric.dataset = true then none
      else some (decide (metric.aggregation = .countDistinct), qualified metric) := by
  generalize haggregation : metric.aggregation = aggregation at hqualifier
  cases hqualifier with
  | plain hplain =>
    rw [List.nil_append, h.splitDistinct_qualified]
    simp [hplain]
  | distinct hkeyword hfirst hgap =>
    rw [h.splitDistinct_keyword hkeyword hfirst hgap]
    simp

theorem trimmed_spelled {metric : ParsedMetric} (h : Portable metric) {qualifier : List Char}
    (hqualifier : Qualifies metric.aggregation qualifier) :
    Trimmed isWhitespace (qualifier ++ qualified metric) := by
  generalize metric.aggregation = aggregation at hqualifier
  cases hqualifier with
  | plain => exact h.trimmed_qualified
  | @distinct keyword first gap hkeyword hfirst hgap =>
    have hletters := continues_of_isKeyword distinct_letters hkeyword
    have hne : keyword ≠ [] := by
      rintro rfl
      cases hkeyword
    have hfield := (portableIdentifier_all h.2).1
    have htrimmed := trimmed_of_ends hne (fun c hc => (plain_of_continues (hletters c hc)).1)
      (first :: gap ++ (metric.dataset.toList ++ ['.'])) hfield fun c hc => (h.field_chars c hc).1
    simpa [qualified] using htrimmed

/-- The parser reads every spelling of a metric, but for the names that look like the keyword. -/
theorem parse_spelled {text : String} {metric : ParsedMetric} (h : Spells text.toList metric) :
    parseMetricExpression text =
      if metric.aggregation ≠ .countDistinct ∧ startsDistinct metric.dataset = true then none
      else some metric := by
  generalize hchars : text.toList = chars at h
  cases h with
  | @intro lead function between inside qualifier after trail _ hportable hfunction hqualifier hlead
    hbetween hinside hafter htrail =>
    obtain ⟨hname, hletters⟩ := functionName_letters metric.aggregation
    have hkeyword := continues_of_isKeyword hletters hfunction
    have hne : function ≠ [] := by
      rintro rfl
      rw [isKeyword, List.map_nil, beq_iff_eq] at hfunction
      exact hname hfunction.symm
    have hfunctions : ∀ c ∈ function, isWhitespace c = false :=
      fun c hc => (plain_of_continues (hkeyword c hc)).1
    have hends : ∀ c ∈ [')'], isWhitespace c = false := List.forall_mem_singleton.mpr rfl
    have hwhole : trim text.toList = function ++ between ++ '(' ::
        (inside ++ (qualifier ++ qualified metric ++ after) ++ [')']) := by
      have htrimmed := trimmed_of_ends hne hfunctions
        (between ++ '(' :: (inside ++ (qualifier ++ qualified metric ++ after)))
        (List.cons_ne_nil ')' []) hends
      rw [hchars]
      apply trimMatches_padded hlead _ htrail
      simpa using htrimmed
    have hopen : '(' ∉ function ++ between := by
      rw [List.mem_append, not_or]
      exact ⟨fun hmem => (plain_of_continues (hkeyword _ hmem)).2.2.1 rfl,
        hbetween.notMem (by decide)⟩
    have hclose : (function ++ between ++ '(' ::
        (inside ++ (qualifier ++ qualified metric ++ after) ++ [')'])).getLast? = some ')' := by
      rw [← List.cons_append, ← List.append_assoc, List.getLast?_concat]
    have hinner : trim (inside ++ (qualifier ++ qualified metric ++ after)) =
        qualifier ++ qualified metric :=
      trimMatches_padded hinside (trimmed_spelled hportable hqualifier) hafter
    have hhead : trim (function ++ between) = function := by
      have hplain : Trimmed isWhitespace function :=
        ⟨fun c hc => hfunctions c (List.mem_of_head? hc),
          fun c hc => hfunctions c (List.mem_of_getLast? hc)⟩
      exact trimMatches_padded (fun c hc => absurd hc List.not_mem_nil) hplain hbetween
    have hdot : '.' ∉ metric.field.toList := fun hmem => (hportable.field_chars _ hmem).2.2.2 rfl
    simp only [parseMetricExpression, hwhole, splitOnce_append hopen, hclose, List.dropLast_concat,
      hinner, splitDistinct_spelled hportable hqualifier, hhead, Option.bind_eq_bind,
      Option.bind_some, ne_eq, not_true_eq_false, if_false]
    split_ifs with hstarts
    · rfl
    · simp only [Option.bind_some, hportable.splitOnce_qualified, hdot, String.ofList_toList,
        hportable.1, hportable.2, parseAggregation_functionName hfunction, decide_false,
        Bool.not_true, Bool.or_self, Bool.false_eq_true, if_false]

/-! ## What was read -/

theorem trim_split (chars : List Char) : ∃ before after, chars = before ++ (trim chars ++ after) ∧
    Blank before ∧ Blank after := trimMatches_split isWhitespace chars

theorem parseAggregation_some {function : List Char} {distinct : Bool} {aggregation : Aggregation}
    (h : parseAggregation function distinct = some aggregation) :
    isKeyword (functionName aggregation) function = true ∧
      (distinct = true ↔ aggregation = .countDistinct) := by
  unfold parseAggregation at h
  split_ifs at h with hcount hdistinct hdistinct hsum hmin hmax havg
  all_goals
    obtain rfl := Option.some.inj h
  · exact ⟨hcount, by simp [hdistinct]⟩
  · exact ⟨hcount, by simp [hdistinct]⟩
  · exact ⟨hsum, by simp [hdistinct]⟩
  · exact ⟨hmin, by simp [hdistinct]⟩
  · exact ⟨hmax, by simp [hdistinct]⟩
  · exact ⟨havg, by simp [hdistinct]⟩

/-- The argument without its qualifier, and the blanks that were trimmed behind it. -/
theorem splitDistinct_some {argument name : List Char} {distinct : Bool}
    (h : splitDistinct argument = some (distinct, name)) {aggregation : Aggregation}
    (haggregation : distinct = true ↔ aggregation = .countDistinct)
    (hname : ∀ c ∈ name.head?, isWhitespace c = false) (hne : name ≠ []) :
    ∃ qualifier after, argument = qualifier ++ name ++ after ∧ Qualifies aggregation qualifier ∧
      Blank after := by
  rw [splitDistinct] at h
  split_ifs at h with hkeyword hspace
  · obtain ⟨rfl, rfl⟩ := Prod.mk.inj (Option.some.inj h)
    obtain rfl := haggregation.mp rfl
    obtain ⟨first, hfirst, hblank⟩ := (Option.any_eq_true _ _).mp hspace
    obtain ⟨before, after, hsplit, hbefore, hafter⟩ := trim_split (argument.drop 8)
    have hhead : (argument.drop 8).head? = some first := by rw [List.head?_drop, hfirst]
    cases before with
    | nil =>
      -- The name would begin with the space that is behind the keyword.
      rw [hsplit, List.nil_append, List.head?_append_of_ne_nil _ hne] at hhead
      have hplain := hname first hhead
      rw [isWhitespace_of_ascii hblank] at hplain
      cases hplain
    | cons c gap =>
      rw [hsplit] at hhead
      obtain rfl : c = first := Option.some.inj hhead
      refine ⟨argument.take 8 ++ c :: gap, after, ?_, .distinct hkeyword hblank ?_, hafter⟩
      · have hwhole := List.take_append_drop 8 argument
        rw [hsplit] at hwhole
        simpa using hwhole.symm
      · exact fun d hd => hbefore d (List.mem_cons_of_mem c hd)
  · obtain ⟨rfl, rfl⟩ := Prod.mk.inj (Option.some.inj h)
    have hplain : aggregation ≠ .countDistinct := by
      intro heq
      cases haggregation.mpr heq
    exact ⟨[], [], by simp, .plain hplain, fun c hc => absurd hc List.not_mem_nil⟩

/-- The closing parenthesis is not the opening one, so it is behind it. -/
theorem eq_dropLast_of_close {front rest : List Char}
    (h : (front ++ '(' :: rest).getLast? = some ')') : rest = rest.dropLast ++ [')'] := by
  cases rest with
  | nil =>
    rw [List.getLast?_concat] at h
    revert h
    decide
  | cons c rest =>
    rw [List.getLast?_append_of_ne_nil _ (List.cons_ne_nil _ _), List.getLast?_cons_cons] at h
    exact (List.dropLast_append_getLast? _ h).symm

/-- A text that is read spells what was read. -/
theorem spells_of_parse {text : String} {metric : ParsedMetric}
    (h : parseMetricExpression text = some metric) : Spells text.toList metric := by
  obtain ⟨lead, trail, hwhole, hlead, htrail⟩ := trim_split text.toList
  simp only [parseMetricExpression, Option.bind_eq_bind, Option.bind_eq_some_iff, Prod.exists] at h
  obtain ⟨function, rest, hopen, h⟩ := h
  split_ifs at h with hclose
  rw [not_not] at hclose
  simp only [Option.bind_eq_some_iff, Prod.exists] at h
  obtain ⟨distinct, argument, hdistinct, dataset, field, hdot, h⟩ := h
  split_ifs at h with hnames
  simp only [Option.bind_eq_some_iff, Option.some.injEq] at h
  obtain ⟨aggregation, haggregation, rfl⟩ := h
  obtain ⟨hfunction, hiff⟩ := parseAggregation_some haggregation
  obtain ⟨rfl, -⟩ := splitOnce_some hdot
  obtain ⟨hexpression, -⟩ := splitOnce_some hopen
  have hportable : Portable ⟨aggregation, String.ofList dataset, String.ofList field⟩ := by
    simp only [Bool.or_eq_true, Bool.not_eq_true', decide_eq_true_eq, not_or, Bool.not_eq_false]
      at hnames
    exact ⟨hnames.1.2, hnames.2⟩
  have hqualified : qualified ⟨aggregation, String.ofList dataset, String.ofList field⟩ =
      dataset ++ '.' :: field := by
    simp [qualified]
  have hname := hportable.trimmed_qualified
  rw [hqualified] at hname
  obtain ⟨qualifier, gap, hargument, hqualifier, hgap⟩ :=
    splitDistinct_some hdistinct hiff hname.1 (by simp)
  obtain ⟨inside, after, hinner, hinside, hafter⟩ := trim_split rest.dropLast
  obtain ⟨before, between, hhead, hbefore, hbetween⟩ := trim_split function
  have hrest : rest = rest.dropLast ++ [')'] := by
    rw [hexpression] at hclose
    exact eq_dropLast_of_close hclose
  have hspelled := Spells.intro hportable hfunction hqualifier
    (List.forall_mem_append.mpr ⟨hlead, hbefore⟩ : Blank (lead ++ before)) hbetween hinside
    (List.forall_mem_append.mpr ⟨hgap, hafter⟩ : Blank (gap ++ after)) htrail
  have htext : text.toList = lead ++ before ++ (trim function ++ between ++ '(' ::
      (inside ++ (qualifier ++ (dataset ++ '.' :: field) ++ (gap ++ after)) ++ [')']) ++ trail) :=
    calc
      text.toList = lead ++ (function ++ '(' :: rest ++ trail) := by rw [← hexpression, ← hwhole]
      _ = lead ++ (before ++ (trim function ++ between) ++
          '(' :: (inside ++ (trim rest.dropLast ++ after) ++ [')']) ++ trail) := by
        rw [← hhead, ← hinner, ← hrest]
      _ = _ := by
        rw [hargument]
        simp only [List.append_assoc, List.cons_append]
  rw [htext, ← hqualified]
  exact hspelled

/-! ## Round trips -/

theorem exportedFunction_keyword (aggregation : Aggregation) :
    isKeyword (functionName aggregation) (exportedFunction aggregation).1.toList = true := by
  cases aggregation <;> decide

theorem exportedFunction_qualifies (aggregation : Aggregation) :
    Qualifies aggregation (exportedFunction aggregation).2.toList := by
  by_cases h : aggregation = .countDistinct
  · subst h
    have hqualifies : Qualifies .countDistinct ("DISTINCT".toList ++ ' ' :: []) :=
      .distinct (by decide) (by decide) fun c hc => absurd hc List.not_mem_nil
    exact hqualifies
  · have hempty : (exportedFunction aggregation).2.toList = [] := by
      cases aggregation
      all_goals first | rfl | exact absurd rfl h
    rw [hempty]
    exact .plain h

theorem spells_metricExpression {aggregation : Aggregation} {dataset field : String}
    (hdataset : portableIdentifier dataset = true) (hfield : portableIdentifier field = true) :
    Spells (metricExpression aggregation dataset field).toList ⟨aggregation, dataset, field⟩ := by
  have hblank : Blank [] := fun c hc => absurd hc List.not_mem_nil
  have hportable : Portable ⟨aggregation, dataset, field⟩ := ⟨hdataset, hfield⟩
  have hspelled := Spells.intro hportable (exportedFunction_keyword aggregation)
    (exportedFunction_qualifies aggregation) hblank hblank hblank hblank hblank
  have htext : (metricExpression aggregation dataset field).toList =
      (exportedFunction aggregation).1.toList ++ '(' ::
        ((exportedFunction aggregation).2.toList ++ (dataset.toList ++ '.' :: field.toList)
          ++ [')']) := by
    simp [metricExpression]
  rw [htext]
  simpa [qualified] using hspelled

/-- The importer reads what the exporter wrote exactly for a distinct count, and for a dataset whose
name does not begin like the keyword. Whatever it reads denotes what it returns, and any two
spellings of one metric are read alike. -/
theorem metric_expression_round_trip_iff (aggregation : Aggregation) (dataset field : String)
    (hdataset : portableIdentifier dataset = true) (hfield : portableIdentifier field = true) :
    (parseMetricExpression (metricExpression aggregation dataset field) =
        some ⟨aggregation, dataset, field⟩ ↔
      aggregation = .countDistinct ∨ startsDistinct dataset = false) ∧
    (∀ text metric, parseMetricExpression text = some metric → Spells text.toList metric) ∧
    ∀ (text text' : String) (metric : ParsedMetric), Spells text.toList metric →
      Spells text'.toList metric → parseMetricExpression text = parseMetricExpression text' := by
  refine ⟨?_, fun text metric => spells_of_parse, fun text text' metric hspells hspells' => ?_⟩
  · rw [parse_spelled (spells_metricExpression hdataset hfield)]
    by_cases hdistinct : aggregation = .countDistinct
    · simp [hdistinct]
    · cases startsDistinct dataset <;> simp [hdistinct]
  · rw [parse_spelled hspells, parse_spelled hspells']

theorem metric_expression_round_trip_orders :
    parseMetricExpression "SUM(orders.amount)" = some ⟨.sum, "orders", "amount"⟩ :=
  ((metric_expression_round_trip_iff .sum "orders" "amount" (by decide) (by decide)).1).mpr
    (.inr (by decide))

/-- A dataset that may be exported, and not imported again. -/
theorem distinct_orders_unread :
    portableIdentifier "distinct_orders" = true ∧ portableIdentifier "id" = true ∧
      metricExpression .count "distinct_orders" "id" = "COUNT(distinct_orders.id)" ∧
      parseMetricExpression "COUNT(distinct_orders.id)" = none := by
  decide

end Postgresem.Osi

import Mathlib.Computability.Language

/-! Regular languages over the letters that a test accepts, parts of a fixed width, and decisions
that may fail to be reached. -/
namespace Grammar
open scoped Computability

variable {α : Type}

section Letters

/-- The words of one letter that the test accepts. -/
def oneOf (accepts : α → Bool) : Language α := {word | ∃ a, accepts a = true ∧ word = [a]}

def letter (a : α) : Language α := {[a]}

def optional (language : Language α) : Language α := 1 + language

theorem mem_optional {language : Language α} {word : List α} :
    word ∈ optional language ↔ word = [] ∨ word ∈ language := by
  rw [optional, Language.mem_add, Language.mem_one]

theorem mem_letter_mul {a : α} {language : Language α} {word : List α} :
    word ∈ letter a * language ↔ ∃ rest ∈ language, word = a :: rest := by
  rw [Language.mem_mul]
  constructor
  · rintro ⟨_, rfl, rest, hrest, rfl⟩
    exact ⟨rest, hrest, rfl⟩
  · rintro ⟨rest, hrest, rfl⟩
    exact ⟨[a], rfl, rest, hrest, rfl⟩

theorem mem_oneOf_mul {accepts : α → Bool} {language : Language α} {word : List α} :
    word ∈ oneOf accepts * language ↔
      ∃ a, accepts a = true ∧ ∃ rest ∈ language, word = a :: rest := by
  rw [Language.mem_mul]
  constructor
  · rintro ⟨_, ⟨a, ha, rfl⟩, rest, hrest, rfl⟩
    exact ⟨a, ha, rest, hrest, rfl⟩
  · rintro ⟨a, ha, rest, hrest, rfl⟩
    exact ⟨[a], ⟨a, ha, rfl⟩, rest, hrest, rfl⟩

theorem mem_oneOf_kstar {accepts : α → Bool} {word : List α} :
    word ∈ (oneOf accepts)∗ ↔ ∀ a ∈ word, accepts a = true := by
  constructor
  · intro h a ha
    obtain ⟨parts, rfl, hparts⟩ := Language.mem_kstar.mp h
    obtain ⟨part, hpart, ha⟩ := List.mem_flatten.mp ha
    obtain ⟨b, hb, rfl⟩ := hparts part hpart
    rwa [List.mem_singleton.mp ha]
  · intro h
    refine Language.mem_kstar.mpr ⟨word.map fun a => [a], ?_, ?_⟩
    · rw [← List.flatMap_def]
      simp
    · intro part hpart
      obtain ⟨a, ha, rfl⟩ := List.mem_map.mp hpart
      exact ⟨a, h a ha, rfl⟩

/-- One letter or more. -/
theorem mem_oneOf_mul_kstar {accepts : α → Bool} {word : List α} :
    word ∈ oneOf accepts * (oneOf accepts)∗ ↔ word ≠ [] ∧ ∀ a ∈ word, accepts a = true := by
  rw [mem_oneOf_mul]
  constructor
  · rintro ⟨a, ha, rest, hrest, rfl⟩
    exact ⟨by simp, List.forall_mem_cons.mpr ⟨ha, mem_oneOf_kstar.mp hrest⟩⟩
  · rintro ⟨hne, hall⟩
    cases word with
    | nil => exact absurd rfl hne
    | cons a rest =>
      obtain ⟨ha, hrest⟩ := List.forall_mem_cons.mp hall
      exact ⟨a, ha, rest, mem_oneOf_kstar.mpr hrest, rfl⟩

theorem mem_letter_mul_iff {a : α} {language : Language α} {word : List α} :
    word ∈ letter a * language ↔ word[0]? = some a ∧ word.drop 1 ∈ language := by
  rw [mem_letter_mul]
  cases word with
  | nil => simp
  | cons b rest => simp [and_comm, eq_comm]

/-- A word of a language whose words have one length is read from the front. -/
theorem mem_fixed_mul {fixed language : Language α} {width : Nat}
    (h : ∀ word ∈ fixed, word.length = width) {word : List α} :
    word ∈ fixed * language ↔ word.take width ∈ fixed ∧ word.drop width ∈ language := by
  rw [Language.mem_mul]
  constructor
  · rintro ⟨front, hfront, rest, hrest, rfl⟩
    rw [← h front hfront, List.take_left, List.drop_left]
    exact ⟨hfront, hrest⟩
  · rintro ⟨hfront, hrest⟩
    exact ⟨_, hfront, _, hrest, List.take_append_drop width word⟩

theorem length_letter {a : α} {word : List α} (h : word ∈ letter a) : word.length = 1 := by
  rw [show word = [a] from h]
  rfl

theorem length_mul {language other : Language α} {width rest : Nat}
    (h : ∀ word ∈ language, word.length = width) (h' : ∀ word ∈ other, word.length = rest)
    (word : List α) (hword : word ∈ language * other) : word.length = width + rest := by
  obtain ⟨front, hfront, back, hback, rfl⟩ := Language.mem_mul.mp hword
  rw [List.length_append, h front hfront, h' back hback]

end Letters

section Slices

/-- A slice that has to lie within the list. -/
def slice (xs : List α) (start stop : Nat) : Option (List α) :=
  if start ≤ stop ∧ stop ≤ xs.length then some ((xs.drop start).take (stop - start)) else none

theorem slice_of_le {l : List α} {i j : Nat} (h : i ≤ j) (h' : j ≤ l.length) :
    slice l i j = some ((l.drop i).take (j - i)) := if_pos ⟨h, h'⟩

theorem slice_to_end {l : List α} {i : Nat} (h : i ≤ l.length) :
    slice l i l.length = some (l.drop i) := by
  rw [slice_of_le h (le_refl _), List.take_of_length_le (by rw [List.length_drop])]

theorem slice_from_start {l : List α} {j : Nat} (h : j ≤ l.length) :
    slice l 0 j = some (l.take j) := by
  rw [slice_of_le (Nat.zero_le _) h, List.drop_zero, Nat.sub_zero]

theorem length_field {xs : List α} {start width : Nat} (h : start + width ≤ xs.length) :
    ((xs.drop start).take width).length = width := by
  rw [List.length_take, List.length_drop]
  omega

end Slices

section Decisions

/-- The computation reaches an answer, and it is yes exactly when the statement is true. -/
def Decides (answer : Option Bool) (statement : Prop) : Prop :=
  ∃ accepted, answer = some accepted ∧ (accepted = true ↔ statement)

variable {answer : Option Bool} {statement : Prop}

theorem decides_some {accepted : Bool} (h : accepted = true ↔ statement) :
    Decides (some accepted) statement := ⟨accepted, rfl, h⟩

theorem decides_false (h : ¬ statement) : Decides (some false) statement :=
  decides_some (by simp [h])

theorem decides_true (h : statement) : Decides (some true) statement :=
  decides_some (by simp [h])

theorem Decides.congr {other : Prop} (h : Decides answer statement) (hiff : statement ↔ other) :
    Decides answer other := by
  obtain ⟨accepted, hanswer, haccepted⟩ := h
  exact ⟨accepted, hanswer, haccepted.trans hiff⟩

theorem Decides.iff {accepted : Bool} (h : Decides answer statement) (h' : answer = some accepted) :
    accepted = true ↔ statement := by
  obtain ⟨other, hanswer, hother⟩ := h
  rw [h', Option.some.injEq] at hanswer
  rwa [hanswer]

end Decisions

end Grammar

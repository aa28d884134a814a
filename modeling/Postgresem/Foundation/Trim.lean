import Mathlib.Data.List.Basic
import Mathlib.Data.List.TakeWhile

/-! The ends and the first separator of a text, as `trim_matches` and `split_once` treat them. -/
namespace Text

variable {p : Char → Bool} {separator : Char}

/-- `trim_matches`. -/
def trimMatches (p : Char → Bool) (chars : List Char) : List Char :=
  ((chars.dropWhile p).reverse.dropWhile p).reverse

/-- `split_once`: the parts before and after the first separator. -/
def splitOnce (separator : Char) (chars : List Char) : Option (List Char × List Char) :=
  if separator ∈ chars then
    some (chars.takeWhile (· != separator), (chars.dropWhile (· != separator)).drop 1)
  else none

def isAsciiWhitespace (c : Char) : Bool :=
  c == ' ' || c == '\t' || c == '\n' || c == '\r' || c.toNat == 12

/-- Nothing can be trimmed. -/
def Trimmed (p : Char → Bool) (chars : List Char) : Prop :=
  (∀ c ∈ chars.head?, p c = false) ∧ ∀ c ∈ chars.getLast?, p c = false

theorem dropWhile_append_of_all {before rest : List Char} (h : ∀ c ∈ before, p c = true) :
    (before ++ rest).dropWhile p = rest.dropWhile p := by
  induction before with
  | nil => rfl
  | cons c before ih =>
    rw [List.cons_append, List.dropWhile_cons_of_pos (h c List.mem_cons_self)]
    exact ih fun d hd => h d (List.mem_cons_of_mem c hd)

theorem dropWhile_of_head {chars : List Char} (h : ∀ c ∈ chars.head?, p c = false) :
    chars.dropWhile p = chars := by
  cases chars with
  | nil => rfl
  | cons c chars =>
    have hc : p c = false := h c rfl
    rw [List.dropWhile_cons_of_neg (by simp [hc])]

/-- What is around a trimmed text goes, and the text stays. -/
theorem trimMatches_padded {before chars after : List Char} (hbefore : ∀ c ∈ before, p c = true)
    (h : Trimmed p chars) (hafter : ∀ c ∈ after, p c = true) :
    trimMatches p (before ++ (chars ++ after)) = chars := by
  rw [trimMatches, dropWhile_append_of_all hbefore]
  cases chars with
  | nil =>
    have hnone : after.dropWhile p = [] := List.dropWhile_eq_nil_iff.mpr hafter
    rw [List.nil_append, hnone]
    rfl
  | cons c chars =>
    have hfront : (c :: chars ++ after).dropWhile p = c :: chars ++ after :=
      dropWhile_of_head h.1
    have hback : (c :: chars).reverse.dropWhile p = (c :: chars).reverse := by
      apply dropWhile_of_head
      rw [List.head?_reverse]
      exact h.2
    rw [hfront, List.reverse_append, dropWhile_append_of_all
      (fun d hd => hafter d (List.mem_reverse.mp hd)), hback, List.reverse_reverse]

theorem trimMatches_split (p : Char → Bool) (chars : List Char) :
    ∃ before after, chars = before ++ (trimMatches p chars ++ after) ∧
      (∀ c ∈ before, p c = true) ∧ ∀ c ∈ after, p c = true := by
  refine ⟨chars.takeWhile p, ((chars.dropWhile p).reverse.takeWhile p).reverse, ?_, ?_, ?_⟩
  · have hfront := List.takeWhile_append_dropWhile (p := p) (l := chars)
    have hback := List.takeWhile_append_dropWhile (p := p) (l := (chars.dropWhile p).reverse)
    have hrest := congrArg List.reverse hback
    rw [List.reverse_append, List.reverse_reverse] at hrest
    rw [trimMatches, hrest, hfront]
  · intro c hc
    exact List.mem_takeWhile_imp hc
  · intro c hc
    exact List.mem_takeWhile_imp (List.mem_reverse.mp hc)

theorem splitOnce_append {before rest : List Char} (h : separator ∉ before) :
    splitOnce separator (before ++ separator :: rest) = some (before, rest) := by
  have hkeep : ∀ c ∈ before, (c != separator) = true := by
    intro c hc
    exact bne_iff_ne.mpr fun heq => h (heq ▸ hc)
  rw [splitOnce, if_pos (by simp), List.takeWhile_append_of_pos hkeep,
    dropWhile_append_of_all hkeep]
  simp

theorem splitOnce_some {chars before rest : List Char}
    (h : splitOnce separator chars = some (before, rest)) :
    chars = before ++ separator :: rest ∧ separator ∉ before := by
  rw [splitOnce] at h
  split_ifs at h with hmem
  obtain ⟨front, back, rfl, hfront⟩ := List.eq_append_cons_of_mem hmem
  have hsplit : splitOnce separator (front ++ separator :: back) = some (front, back) :=
    splitOnce_append hfront
  rw [splitOnce, if_pos hmem] at hsplit
  rw [hsplit, Option.some.injEq, Prod.mk.injEq] at h
  obtain ⟨rfl, rfl⟩ := h
  exact ⟨rfl, hfront⟩

end Text

import Postgresem.Foundation.Text

/-! Paths of escaped segments. A slash stands before each segment and in none of them, so a path
determines its segments; the escapes are a prefix code, so a segment determines its name. -/
namespace Pointer
open Text

/-- The segments of a path, each behind a slash. -/
def slashed (segments : List String) : List Char :=
  segments.flatMap fun segment => '/' :: segment.toList

theorem takeWhile_slashed {head : List Char} (h : '/' ∉ head) (segments : List String) :
    (head ++ slashed segments).takeWhile (· ≠ '/') = head := by
  have hhead : ∀ c ∈ head, decide (c ≠ '/') = true := by
    intro c hc
    exact decide_eq_true fun heq => h (heq ▸ hc)
  rw [List.takeWhile_append_of_pos hhead]
  cases segments with
  | nil => simp [slashed]
  | cons segment segments => simp [slashed]

theorem slashed_injective {segments others : List String}
    (h : ∀ segment ∈ segments, '/' ∉ segment.toList)
    (h' : ∀ segment ∈ others, '/' ∉ segment.toList) (heq : slashed segments = slashed others) :
    segments = others := by
  induction segments generalizing others with
  | nil =>
    cases others with
    | nil => rfl
    | cons other others => cases heq
  | cons segment segments ih =>
    cases others with
    | nil => cases heq
    | cons other others =>
      have htail : segment.toList ++ slashed segments = other.toList ++ slashed others :=
        List.tail_eq_of_cons_eq heq
      have hsegment := h segment List.mem_cons_self
      have hother := h' other List.mem_cons_self
      have hhead : segment.toList = other.toList := by
        rw [← takeWhile_slashed hsegment segments, htail, takeWhile_slashed hother]
      rw [hhead] at htail
      rw [String.toList_injective hhead, ih (fun s hs => h s (List.mem_cons_of_mem _ hs))
        (fun s hs => h' s (List.mem_cons_of_mem _ hs)) (List.append_cancel_left htail)]

/-! ## Escapes -/

def escape (value : String) : String := replaceChar '/' "~1" (replaceChar '~' "~0" value)

def escapeChar (c : Char) : List Char :=
  if c = '~' then ['~', '0'] else if c = '/' then ['~', '1'] else [c]

theorem toList_escape (value : String) : (escape value).toList = value.toList.flatMap escapeChar := by
  rw [escape, toList_replaceChar, toList_replaceChar, List.flatMap_assoc]
  congr 1
  funext c
  by_cases htilde : c = '~'
  · rw [escapeChar, if_pos htilde, if_pos htilde]
    rfl
  · rw [escapeChar, if_neg htilde, if_neg htilde, List.flatMap_singleton]
    rfl

theorem slash_notMem_escape (value : String) : '/' ∉ (escape value).toList := by
  intro hmem
  rw [toList_escape, List.mem_flatMap] at hmem
  obtain ⟨c, -, hc⟩ := hmem
  unfold escapeChar at hc
  split_ifs at hc with htilde hslash
  · revert hc
    decide
  · revert hc
    decide
  · exact hslash (List.mem_singleton.mp hc).symm

/-- A text that is written in a prefix code is read back. -/
theorem flatMap_injective {α β : Type} {code : α → List β} (hne : ∀ a, code a ≠ [])
    (hcode : ∀ a b rest rest', code a ++ rest = code b ++ rest' → a = b) :
    Function.Injective fun items : List α => items.flatMap code := by
  intro items
  induction items with
  | nil =>
    intro others heq
    cases others with
    | nil => rfl
    | cons b others => exact absurd (List.append_eq_nil_iff.mp heq.symm).1 (hne b)
  | cons a items ih =>
    intro others heq
    cases others with
    | nil => exact absurd (List.append_eq_nil_iff.mp heq).1 (hne a)
    | cons b others =>
      have happend : code a ++ items.flatMap code = code b ++ others.flatMap code := heq
      obtain rfl := hcode a b _ _ happend
      rw [ih (List.append_cancel_left happend)]

theorem escapeChar_prefixFree (a b : Char) (rest rest' : List Char)
    (h : escapeChar a ++ rest = escapeChar b ++ rest') : a = b := by
  unfold escapeChar at h
  -- the first character tells an escape from a plain character, the second one the escapes
  split_ifs at h with ha hb hb' ha' hb hb' hb hb'
  · rw [ha, hb]
  · exact absurd (List.cons.inj (List.cons.inj h).2).1 (by decide)
  · exact absurd (List.cons.inj h).1.symm hb
  · exact absurd (List.cons.inj (List.cons.inj h).2).1 (by decide)
  · rw [ha', hb']
  · exact absurd (List.cons.inj h).1.symm hb
  · exact absurd (List.cons.inj h).1 ‹_›
  · exact absurd (List.cons.inj h).1 ‹_›
  · exact (List.cons.inj h).1

theorem escape_injective : Function.Injective escape := by
  intro a b h
  have hlist := congrArg String.toList h
  rw [toList_escape, toList_escape] at hlist
  apply String.toList_injective
  refine flatMap_injective ?_ escapeChar_prefixFree hlist
  intro c
  unfold escapeChar
  split_ifs <;> simp

end Pointer

import Mathlib.Data.List.Basic

/-! A list that is handed out in pages, each with a cursor to the next one. -/
namespace Paging

variable {κ α ε : Type}

structure Page (κ α : Type) where
  items : List α
  next : Option κ

/-- What a client collects that follows the cursors until there is none. The server may answer each
step differently, as the client may ask for a page of another size. -/
inductive Follows (fetch : Nat → Option κ → Except ε (Page κ α)) :
    Nat → Option κ → List (List α) → Prop
  | last {step : Nat} {cursor : Option κ} {items : List α}
      (h : fetch step cursor = .ok ⟨items, none⟩) : Follows fetch step cursor [items]
  | more {step : Nat} {cursor : Option κ} {items : List α} {next : κ} {pages : List (List α)}
      (h : fetch step cursor = .ok ⟨items, some next⟩)
      (rest : Follows fetch (step + 1) (some next) pages) :
      Follows fetch step cursor (items :: pages)

variable {fetch : Nat → Option κ → Except ε (Page κ α)}

theorem Follows.unique {step : Nat} {cursor : Option κ} {pages others : List (List α)}
    (h : Follows fetch step cursor pages) (h' : Follows fetch step cursor others) :
    pages = others := by
  induction h generalizing others with
  | last hpage =>
    cases h' with
    | last hother =>
      rw [hpage] at hother
      cases hother
      rfl
    | more hother _ =>
      rw [hpage] at hother
      cases hother
  | more hpage _ ih =>
    cases h' with
    | last hother =>
      rw [hpage] at hother
      cases hother
    | more hother hrest =>
      rw [hpage] at hother
      cases hother
      rw [ih hrest]

/-- A server that answers a cursor with the items from its offset on, at least one of them unless
there is none, and a cursor to the rest unless there is none. -/
structure Serves (items : List α) (stands : Option κ → Nat → Prop)
    (fetch : Nat → Option κ → Except ε (Page κ α)) : Prop where
  answers : ∀ {cursor offset}, stands cursor offset → offset ≤ items.length → ∀ step,
    ∃ stop next, fetch step cursor = .ok ⟨(items.take stop).drop offset, next⟩ ∧
      offset ≤ stop ∧ stop ≤ items.length ∧
      (stop < items.length → offset < stop ∧ ∃ following, next = some following ∧
        stands (some following) stop) ∧
      (stop = items.length → next = none)

/-- A client gets the items from its offset on, each once and in order. -/
theorem Serves.follows {items : List α} {stands : Option κ → Nat → Prop}
    (h : Serves items stands fetch) {cursor : Option κ} {offset : Nat}
    (hstands : stands cursor offset) (hle : offset ≤ items.length) (step : Nat) :
    ∃ pages, Follows fetch step cursor pages ∧ pages.flatten = items.drop offset := by
  induction hrest : items.length - offset using Nat.strongRecOn
    generalizing cursor offset step with
  | _ rest ih =>
    obtain ⟨stop, next, hfetch, hfrom, hto, hmore, hlast⟩ := h.answers hstands hle step
    by_cases hend : stop = items.length
    · rw [hlast hend] at hfetch
      refine ⟨_, .last hfetch, ?_⟩
      rw [hend, List.take_length, List.flatten_cons, List.flatten_nil, List.append_nil]
    · obtain ⟨hgrows, following, hnext, hstands'⟩ := hmore (by omega)
      rw [hnext] at hfetch
      obtain ⟨pages, hpages, hitems⟩ := ih (items.length - stop) (by omega) hstands' hto (step + 1)
        rfl
      refine ⟨_, .more hfetch hpages, ?_⟩
      rw [List.flatten_cons, hitems, List.drop_take]
      conv_rhs => rw [← List.take_append_drop (stop - offset) (items.drop offset)]
      rw [List.drop_drop, Nat.add_sub_cancel' hfrom]

end Paging

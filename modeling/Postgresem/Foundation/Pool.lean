import Mathlib.Algebra.BigOperators.Ring.Multiset
import Mathlib.Algebra.Order.BigOperators.Group.Multiset
import Mathlib.Data.Multiset.Filter
import Mathlib.Logic.Relation

/-! Parties that share a state and act one at a time, in any order and any number of them. What each
action keeps of a balance between the shared state and what the parties hold, every run keeps. -/
namespace Pool

structure State (σ κ : Type*) where
  shared : σ
  parties : Multiset κ

variable {σ κ : Type*} (enters : κ → Prop) (acts : σ → κ → σ → κ → Prop)

/-- A party enters, or one of them acts on the shared state. -/
inductive Step : State σ κ → State σ κ → Prop
  | enter {shared : σ} {parties : Multiset κ} {party : κ} (h : enters party) :
      Step ⟨shared, parties⟩ ⟨shared, party ::ₘ parties⟩
  | act {shared shared' : σ} {party party' : κ} {others : Multiset κ}
      (h : acts shared party shared' party') :
      Step ⟨shared, party ::ₘ others⟩ ⟨shared', party' ::ₘ others⟩

/-- What is reached from a shared state without parties. -/
def Reachable (initial : σ) : State σ κ → Prop := Relation.ReflTransGen (Step enters acts) ⟨initial, 0⟩

variable {enters acts} {initial : σ} {state : State σ κ}

theorem Reachable.induction {P : σ → Multiset κ → Prop} (hinitial : P initial 0)
    (henter : ∀ shared parties party, enters party → P shared parties → P shared (party ::ₘ parties))
    (hact : ∀ shared party shared' party' others, acts shared party shared' party' →
      P shared (party ::ₘ others) → P shared' (party' ::ₘ others))
    (h : Reachable enters acts initial state) : P state.shared state.parties := by
  induction h with
  | refl => exact hinitial
  | tail _ hstep ih =>
    cases hstep with
    | enter hparty => exact henter _ _ _ hparty ih
    | act haction => exact hact _ _ _ _ _ haction ih

/-- What every action keeps of the shared state and the sum of what the parties hold, whatever the
others hold. -/
theorem Reachable.balance {M : Type*} [AddCommMonoid M] {w : κ → M} {P : σ → M → Prop}
    (hinitial : P initial 0) (henter : ∀ party, enters party → w party = 0)
    (hact : ∀ {shared party shared' party'}, acts shared party shared' party' → ∀ rest,
      P shared (w party + rest) → P shared' (w party' + rest))
    (h : Reachable enters acts initial state) : P state.shared (state.parties.map w).sum := by
  refine h.induction (P := fun shared parties => P shared (parties.map w).sum) ?_ ?_ ?_
  · simpa using hinitial
  · intro shared parties party hparty hbalance
    rw [Multiset.map_cons, Multiset.sum_cons, henter party hparty, zero_add]
    exact hbalance
  · intro shared party shared' party' others haction hbalance
    rw [Multiset.map_cons, Multiset.sum_cons] at hbalance ⊢
    exact hact haction _ hbalance

/-- Parties that hold something each are no more than the sum. -/
theorem countP_le_sum {parties : Multiset κ} {p : κ → Prop} [DecidablePred p] {w : κ → ℕ}
    (h : ∀ party, p party → 0 < w party) : parties.countP p ≤ (parties.map w).sum := by
  induction parties using Multiset.induction with
  | empty => simp
  | cons party parties ih =>
    rw [Multiset.map_cons, Multiset.sum_cons]
    by_cases hp : p party
    · have hparty := h party hp
      rw [Multiset.countP_cons_of_pos _ hp]
      omega
    · rw [Multiset.countP_cons_of_neg _ hp]
      omega

/-- When a party that is not at rest can always act, and comes nearer to rest by it, all of them can
come to rest without another one. -/
theorem exists_at_rest {rank : κ → ℕ} (hprogress : ∀ shared party, rank party ≠ 0 →
      ∃ shared' party', acts shared party shared' party' ∧ rank party' < rank party)
    (state : State σ κ) : ∃ final, Relation.ReflTransGen (Step enters acts) state final ∧
      (∀ party ∈ final.parties, rank party = 0) ∧ final.parties.card = state.parties.card := by
  induction hsum : (state.parties.map rank).sum using Nat.strong_induction_on generalizing state with
  | h total ih =>
    by_cases hrest : ∀ party ∈ state.parties, rank party = 0
    · exact ⟨state, .refl, hrest, rfl⟩
    · push Not at hrest
      obtain ⟨party, hmem, hrank⟩ := hrest
      obtain ⟨others, hothers⟩ := Multiset.exists_cons_of_mem hmem
      obtain ⟨shared, parties⟩ := state
      obtain rfl : parties = party ::ₘ others := hothers
      obtain ⟨shared', party', haction, hlower⟩ := hprogress shared party hrank
      have hless : ((party' ::ₘ others).map rank).sum < total := by
        rw [← hsum, Multiset.map_cons, Multiset.sum_cons, Multiset.map_cons, Multiset.sum_cons]
        omega
      obtain ⟨final, hsteps, hfinal, hcard⟩ := ih _ hless ⟨shared', party' ::ₘ others⟩ rfl
      refine ⟨final, .head (.act haction) hsteps, hfinal, ?_⟩
      rw [hcard, Multiset.card_cons, Multiset.card_cons]

end Pool

import Mathlib.Algebra.Order.Field.Basic
import Mathlib.Tactic.Linarith
import Mathlib.Tactic.Ring

/-! A bucket of tokens that fills up at a constant rate, over an ordered field. A window of time admits
no more than the bucket holds and what flows in during the window. -/
namespace TokenBucket

variable {K : Type} [Field K] [LinearOrder K]

/-- The tokens after some time has passed. -/
def refill (burst rate tokens elapsed : K) : K := min (tokens + elapsed * rate) burst

section Refill
variable {burst rate tokens elapsed : K}

theorem refill_le : refill burst rate tokens elapsed ≤ burst := min_le_right _ _

theorem refill_le_add : refill burst rate tokens elapsed ≤ tokens + elapsed * rate := min_le_left _ _

variable [IsStrictOrderedRing K]

theorem le_refill (hrate : 0 ≤ rate) (helapsed : 0 ≤ elapsed) (htokens : tokens ≤ burst) :
    tokens ≤ refill burst rate tokens elapsed :=
  le_min (le_add_of_nonneg_right (mul_nonneg helapsed hrate)) htokens

theorem refill_full (hrate : 0 ≤ rate) (helapsed : 0 ≤ elapsed) :
    refill burst rate burst elapsed = burst :=
  min_eq_right (le_add_of_nonneg_right (mul_nonneg helapsed hrate))

/-- Refilling twice is refilling once: nothing is lost or gained at a stop on the way. -/
theorem refill_refill (hrate : 0 ≤ rate) {later : K} (hlater : 0 ≤ later) :
    refill burst rate (refill burst rate tokens elapsed) later =
      refill burst rate tokens (elapsed + later) := by
  have hflow : 0 ≤ later * rate := mul_nonneg hlater hrate
  unfold refill
  rcases le_total (tokens + elapsed * rate) burst with h | h
  · rw [min_eq_left h, add_mul, add_assoc]
  · rw [min_eq_right h, min_eq_right (le_add_of_nonneg_right hflow), add_mul, ← add_assoc,
      min_eq_right (h.trans (le_add_of_nonneg_right hflow))]

end Refill

/-- What a bucket, last filled at `last`, owes to the requests that it admitted between two times. The
tokens that are left and those admitted are bounded by what there was and what flowed in. -/
structure Admits (burst rate first final : K) (tokens last : K) (admitted : K) : Prop where
  window : admitted ≤ burst + (final - first) * rate
  before : last < first → admitted = 0
  inside : first ≤ last → last ≤ final → admitted + tokens ≤ burst + (last - first) * rate

section Window
variable {burst rate first final tokens last admitted now : K}

/-- A request that is admitted outside of the window. -/
theorem Admits.spend_outside (h : Admits burst rate first final tokens now admitted)
    (houtside : ¬ (first ≤ now ∧ now ≤ final)) :
    Admits burst rate first final (tokens - 1) now admitted :=
  ⟨h.window, h.before, fun hfirst hfinal => absurd ⟨hfirst, hfinal⟩ houtside⟩

variable [IsStrictOrderedRing K]

theorem Admits.refill (h : Admits burst rate first final tokens last admitted) (hrate : 0 ≤ rate)
    (hlast : last ≤ now) :
    Admits burst rate first final (refill burst rate tokens (now - last)) now admitted := by
  refine ⟨h.window, fun hnow => h.before (hlast.trans_lt hnow), fun hfirst hfinal => ?_⟩
  rcases lt_or_ge last first with hbefore | hinside
  · have hflow : 0 ≤ (now - first) * rate := mul_nonneg (sub_nonneg.mpr hfirst) hrate
    have hfull : TokenBucket.refill burst rate tokens (now - last) ≤ burst := refill_le
    rw [h.before hbefore]
    linarith
  · have hbound := h.inside hinside (hlast.trans hfinal)
    have hadd : TokenBucket.refill burst rate tokens (now - last) ≤ tokens + (now - last) * rate :=
      refill_le_add
    have hsplit : (now - first) * rate = (last - first) * rate + (now - last) * rate := by ring
    linarith

/-- A request that is admitted inside the window takes a token. -/
theorem Admits.spend (h : Admits burst rate first final tokens now admitted) (hrate : 0 ≤ rate)
    (htokens : 1 ≤ tokens) (hfirst : first ≤ now) (hfinal : now ≤ final) :
    Admits burst rate first final (tokens - 1) now (admitted + 1) := by
  have hbound := h.inside hfirst hfinal
  have hflow : (now - first) * rate ≤ (final - first) * rate :=
    mul_le_mul_of_nonneg_right (sub_le_sub_right hfinal first) hrate
  refine ⟨by linarith, fun hnow => absurd hfirst (not_le.mpr hnow), fun _ _ => by linarith⟩

/-- A full bucket has admitted nothing. -/
theorem admits_full (hburst : 0 ≤ burst) (hrate : 0 ≤ rate) (hwindow : first ≤ final) :
    Admits burst rate first final burst last 0 := by
  refine ⟨?_, fun _ => rfl, fun hfirst _ => ?_⟩
  · exact add_nonneg hburst (mul_nonneg (sub_nonneg.mpr hwindow) hrate)
  · rw [zero_add]
    exact le_add_of_nonneg_right (mul_nonneg (sub_nonneg.mpr hfirst) hrate)

end Window

end TokenBucket

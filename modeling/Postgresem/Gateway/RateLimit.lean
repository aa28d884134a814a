import Mathlib.Algebra.Order.Field.Rat
import Mathlib.Tactic.Positivity
import Postgresem.Foundation.TokenBucket
import Postgresem.Gateway.Principal

/-! The limiter of the adapter over runs that acquire and drop permits in any order, with exact tokens.
Its lock is not poisoned, as no step under it panics. -/
namespace Postgresem.Gateway

/-- The clock counts nanoseconds. -/
def seconds (nanoseconds : Nat) : ℚ := nanoseconds / 10 ^ 9

def refillPerSecond (requestsPerMinute : Nat) : ℚ := requestsPerMinute / 60

def exactTokens : TokenArithmetic ℚ where
  full burst := burst
  refill tokens elapsed requestsPerMinute burst :=
    TokenBucket.refill burst (refillPerSecond requestsPerMinute) tokens (seconds elapsed)
  available tokens := decide (1 ≤ tokens)
  spend tokens := tokens - 1

/-- The buckets, the permits that are held, and the time of the last acquisition. -/
structure Limiter where
  buckets : LimiterState ℚ
  permits : List String
  clock : Nat

def Limiter.initial : Limiter := ⟨[], [], 0⟩

inductive LimiterEvent where
  | acquired (authorityId : String) (now : Nat) (outcome : Except LimitError String)
  | dropped (authorityId : String)

def LimiterEvent.authorityId : LimiterEvent → String
  | .acquired authorityId _ _ => authorityId
  | .dropped authorityId => authorityId

section Steps
variable (limits : String → RateLimitConfig)

/-- The clock does not go back, and a permit is dropped once. -/
inductive Limiter.Step : Limiter → LimiterEvent → Limiter → Prop
  | accept {limiter : Limiter} {authorityId permit : String} {now : Nat} {buckets : LimiterState ℚ}
      (hclock : limiter.clock ≤ now)
      (h : acquire exactTokens limiter.buckets authorityId (limits authorityId) now =
        (.ok permit, buckets)) :
      Step limiter (.acquired authorityId now (.ok permit)) ⟨buckets, permit :: limiter.permits, now⟩
  | refuse {limiter : Limiter} {authorityId : String} {now : Nat} {error : LimitError}
      {buckets : LimiterState ℚ} (hclock : limiter.clock ≤ now)
      (h : acquire exactTokens limiter.buckets authorityId (limits authorityId) now =
        (.error error, buckets)) :
      Step limiter (.acquired authorityId now (.error error)) ⟨buckets, limiter.permits, now⟩
  | drop {limiter : Limiter} {authorityId : String} (hpermit : authorityId ∈ limiter.permits) :
      Step limiter (.dropped authorityId)
        ⟨release limiter.buckets authorityId, limiter.permits.erase authorityId, limiter.clock⟩

inductive Limiter.Run : List LimiterEvent → Limiter → Prop
  | initial : Run [] Limiter.initial
  | snoc {events : List LimiterEvent} {event : LimiterEvent} {limiter next : Limiter}
      (run : Run events limiter) (step : Limiter.Step limits limiter event next) :
      Run (events ++ [event]) next

end Steps

/-! ## One acquisition -/

/-- The bucket that an acquisition works on. -/
def bucketAt (limit : RateLimitConfig) (bucket : Option (Bucket ℚ)) (now : Nat) : Bucket ℚ :=
  bucket.getD { tokens := limit.burst, lastRefill := now, active := 0 }

/-- The tokens of an authority at some time. -/
def tokensAt (limit : RateLimitConfig) (bucket : Option (Bucket ℚ)) (now : Nat) : ℚ :=
  TokenBucket.refill limit.burst (refillPerSecond limit.requestsPerMinute)
    (bucketAt limit bucket now).tokens (seconds (now - (bucketAt limit bucket now).lastRefill))

section Acquire
variable {buckets buckets' : LimiterState ℚ} {authorityId permit : String} {limit : RateLimitConfig}
  {now : Nat} {error : LimitError}

/-- The permit is the authority's, there was a slot and a token, and both are taken. -/
theorem acquire_ok
    (h : acquire exactTokens buckets authorityId limit now = (.ok permit, buckets')) :
    permit = authorityId ∧
      (bucketAt limit (buckets.lookup authorityId) now).active < limit.maxConcurrent ∧
      1 ≤ tokensAt limit (buckets.lookup authorityId) now ∧
      buckets' = OrderedMap.insert authorityId
        { tokens := tokensAt limit (buckets.lookup authorityId) now - 1
          lastRefill := now
          active := (bucketAt limit (buckets.lookup authorityId) now).active + 1 } buckets := by
  simp only [acquire] at h
  split_ifs at h with hslot htoken
  · cases (Prod.mk.inj h).1
  · obtain ⟨hpermit, hbuckets⟩ := Prod.mk.inj h
    exact ⟨(Except.ok.inj hpermit).symm, not_le.mp hslot, of_decide_eq_true htoken, hbuckets.symm⟩
  · cases (Prod.mk.inj h).1

/-- A refusal refills the bucket. -/
theorem acquire_error
    (h : acquire exactTokens buckets authorityId limit now = (.error error, buckets')) :
    buckets' = OrderedMap.insert authorityId
      { tokens := tokensAt limit (buckets.lookup authorityId) now
        lastRefill := now
        active := (bucketAt limit (buckets.lookup authorityId) now).active } buckets := by
  simp only [acquire] at h
  split_ifs at h with hslot htoken
  · exact (Prod.mk.inj h).2.symm
  · cases (Prod.mk.inj h).1
  · exact (Prod.mk.inj h).2.symm

theorem acquire_of_free
    (hslot : (bucketAt limit (buckets.lookup authorityId) now).active < limit.maxConcurrent)
    (htoken : 1 ≤ tokensAt limit (buckets.lookup authorityId) now) :
    ∃ buckets', acquire exactTokens buckets authorityId limit now = (.ok authorityId, buckets') := by
  have havailable : exactTokens.available (tokensAt limit (buckets.lookup authorityId) now) = true :=
    decide_eq_true htoken
  exact ⟨_, (if_neg (not_le.mpr hslot)).trans (if_pos havailable)⟩

theorem acquire_of_busy
    (hslot : limit.maxConcurrent ≤ (bucketAt limit (buckets.lookup authorityId) now).active) :
    ∃ buckets', acquire exactTokens buckets authorityId limit now =
      (.error .concurrency, buckets') :=
  ⟨_, if_pos hslot⟩

theorem release_of_lookup {bucket : Bucket ℚ} (h : buckets.lookup authorityId = some bucket) :
    release buckets authorityId =
      OrderedMap.insert authorityId { bucket with active := bucket.active - 1 } buckets := by
  rw [release, h]

end Acquire

/-! ## Slots and tokens -/

/-- What holds of a bucket while this many of its permits are held. -/
structure Bucket.Sound (limit : RateLimitConfig) (clock held : Nat) (bucket : Bucket ℚ) : Prop where
  active : bucket.active = held
  slots : bucket.active ≤ limit.maxConcurrent
  tokens : 0 ≤ bucket.tokens ∧ bucket.tokens ≤ limit.burst
  lastRefill : bucket.lastRefill ≤ clock

/-- No permit is held of an authority that has no bucket. -/
structure Limiter.Invariant (limits : String → RateLimitConfig) (limiter : Limiter) : Prop where
  sound : ∀ {authorityId bucket}, limiter.buckets.lookup authorityId = some bucket →
    bucket.Sound (limits authorityId) limiter.clock (limiter.permits.count authorityId)
  absent : ∀ {authorityId}, limiter.buckets.lookup authorityId = none →
    limiter.permits.count authorityId = 0

theorem refillPerSecond_nonneg (requestsPerMinute : Nat) : 0 ≤ refillPerSecond requestsPerMinute := by
  unfold refillPerSecond
  positivity

theorem seconds_nonneg (nanoseconds : Nat) : 0 ≤ seconds nanoseconds := by
  unfold seconds
  positivity

theorem seconds_mono {first second : Nat} (h : first ≤ second) : seconds first ≤ seconds second := by
  unfold seconds
  gcongr

theorem seconds_sub {first second : Nat} (h : first ≤ second) :
    seconds (second - first) = seconds second - seconds first := by
  unfold seconds
  rw [Nat.cast_sub h, sub_div]

theorem Bucket.Sound.mono {limit : RateLimitConfig} {clock later held : Nat} {bucket : Bucket ℚ}
    (h : bucket.Sound limit clock held) (hclock : clock ≤ later) : bucket.Sound limit later held :=
  { h with lastRefill := h.lastRefill.trans hclock }

theorem Bucket.Sound.refill {limit : RateLimitConfig} {now held : Nat} {bucket : Bucket ℚ}
    (h : bucket.Sound limit now held) :
    bucket.tokens ≤ tokensAt limit (some bucket) now ∧ 0 ≤ tokensAt limit (some bucket) now ∧
      tokensAt limit (some bucket) now ≤ limit.burst := by
  have hgrows : bucket.tokens ≤ tokensAt limit (some bucket) now :=
    TokenBucket.le_refill (refillPerSecond_nonneg _) (seconds_nonneg _) h.tokens.2
  exact ⟨hgrows, h.tokens.1.trans hgrows, TokenBucket.refill_le⟩

theorem tokensAt_bucketAt (limit : RateLimitConfig) (bucket : Option (Bucket ℚ)) (now : Nat) :
    tokensAt limit (some (bucketAt limit bucket now)) now = tokensAt limit bucket now := rfl

section Invariant
variable {limits : String → RateLimitConfig} {limiter next : Limiter} {event : LimiterEvent}

theorem Limiter.Invariant.bucketAt (h : limiter.Invariant limits) (authorityId : String) {now : Nat}
    (hclock : limiter.clock ≤ now) :
    (bucketAt (limits authorityId) (limiter.buckets.lookup authorityId) now).Sound
      (limits authorityId) now (limiter.permits.count authorityId) := by
  cases hbucket : limiter.buckets.lookup authorityId with
  | some bucket => exact (h.sound hbucket).mono hclock
  | none =>
    rw [h.absent hbucket]
    exact ⟨rfl, Nat.zero_le _, ⟨Nat.cast_nonneg _, le_refl _⟩, le_refl _⟩

/-- One bucket changes, and with it the permits of its authority only. -/
theorem Limiter.Invariant.insert (h : limiter.Invariant limits) {authorityId : String}
    {permits : List String} {now : Nat} {bucket : Bucket ℚ} (hclock : limiter.clock ≤ now)
    (hsound : bucket.Sound (limits authorityId) now (permits.count authorityId))
    (hothers : ∀ other, other ≠ authorityId → permits.count other = limiter.permits.count other) :
    Limiter.Invariant limits
      ⟨OrderedMap.insert authorityId bucket limiter.buckets, permits, now⟩ := by
  constructor
  · intro other found hlookup
    rw [OrderedMap.lookup_insert] at hlookup
    split_ifs at hlookup with hother
    · obtain rfl := Option.some.inj hlookup
      subst hother
      exact hsound
    · simp only [hothers other hother]
      exact (h.sound hlookup).mono hclock
  · intro other hlookup
    rw [OrderedMap.lookup_insert] at hlookup
    split_ifs at hlookup with hother
    simp only [hothers other hother]
    exact h.absent hlookup

/-- A held permit has a bucket, and its slot is counted. -/
theorem Limiter.Invariant.held (h : limiter.Invariant limits) {authorityId : String}
    (hpermit : authorityId ∈ limiter.permits) :
    ∃ bucket, limiter.buckets.lookup authorityId = some bucket ∧ 0 < bucket.active := by
  cases hbucket : limiter.buckets.lookup authorityId with
  | none => exact absurd hpermit (List.count_eq_zero.mp (h.absent hbucket))
  | some bucket =>
    refine ⟨bucket, rfl, ?_⟩
    rw [(h.sound hbucket).active]
    exact List.count_pos_iff.mpr hpermit

theorem Limiter.Invariant.step (h : limiter.Invariant limits)
    (hstep : Limiter.Step limits limiter event next) : next.Invariant limits := by
  cases hstep with
  | @accept authorityId permit now buckets hclock hacquire =>
    obtain ⟨rfl, hslot, htoken, rfl⟩ := acquire_ok hacquire
    have hbefore := h.bucketAt permit hclock
    obtain ⟨-, hpositive, hfull⟩ := hbefore.refill
    rw [tokensAt_bucketAt] at hpositive hfull
    apply h.insert hclock
    · refine ⟨?_, hslot, ⟨by linarith, by linarith⟩, le_refl _⟩
      rw [List.count_cons_self, ← hbefore.active]
    · exact fun other hother => List.count_cons_of_ne (Ne.symm hother)
  | @refuse authorityId now error buckets hclock hacquire =>
    obtain rfl := acquire_error hacquire
    have hbefore := h.bucketAt authorityId hclock
    apply h.insert hclock
    · exact ⟨hbefore.active, hbefore.slots, hbefore.refill.2, le_refl _⟩
    · exact fun _ _ => rfl
  | @drop authorityId hpermit =>
    obtain ⟨bucket, hbucket, -⟩ := h.held hpermit
    have hbefore := h.sound hbucket
    rw [release_of_lookup hbucket]
    apply h.insert (le_refl _)
    · refine ⟨?_, (Nat.sub_le _ _).trans hbefore.slots, hbefore.tokens, hbefore.lastRefill⟩
      rw [List.count_erase_self, ← hbefore.active]
    · exact fun other hother => List.count_erase_of_ne hother

theorem Limiter.Run.invariant {events : List LimiterEvent} (h : Limiter.Run limits events limiter) :
    limiter.Invariant limits := by
  induction h with
  | initial => exact ⟨nofun, fun _ => rfl⟩
  | snoc _ hstep ih => exact ih.step hstep

end Invariant

/-! ## Windows of time -/

/-- An admission of the authority inside a window, whose ends are in seconds. -/
def LimiterEvent.admittedIn (authorityId : String) (first final : ℚ) : LimiterEvent → Bool
  | .acquired other now (.ok _) =>
    decide (other = authorityId ∧ first ≤ seconds now ∧ seconds now ≤ final)
  | _ => false

def admissions (authorityId : String) (first final : ℚ) (events : List LimiterEvent) : Nat :=
  events.countP (LimiterEvent.admittedIn authorityId first final)

theorem admissions_snoc (authorityId : String) (first final : ℚ) (events : List LimiterEvent)
    (event : LimiterEvent) : admissions authorityId first final (events ++ [event]) =
      admissions authorityId first final events +
        if event.admittedIn authorityId first final then 1 else 0 := by
  rw [admissions, List.countP_append, List.countP_singleton]
  rfl

/-- What a bucket still has and what it admitted, against what it held and what flowed in. -/
def BucketAdmits (limit : RateLimitConfig) (first final : ℚ) (bucket : Bucket ℚ) (admitted : Nat) :
    Prop :=
  TokenBucket.Admits (limit.burst : ℚ) (refillPerSecond limit.requestsPerMinute) first final
    bucket.tokens (seconds bucket.lastRefill) admitted

/-- Without a bucket nothing was admitted. -/
structure Limiter.Admits (limits : String → RateLimitConfig) (first final : ℚ) (authorityId : String)
    (limiter : Limiter) (admitted : Nat) : Prop where
  found : ∀ {bucket}, limiter.buckets.lookup authorityId = some bucket →
    BucketAdmits (limits authorityId) first final bucket admitted
  absent : limiter.buckets.lookup authorityId = none → admitted = 0

section Window
variable {limits : String → RateLimitConfig} {limiter next : Limiter} {event : LimiterEvent}
  {authorityId : String} {first final : ℚ} {admitted : Nat}

/-- After the refill of an acquisition, the bucket that it works on. -/
theorem Limiter.Admits.refill (h : limiter.Admits limits first final authorityId admitted)
    (hinvariant : limiter.Invariant limits) {now : Nat} (hclock : limiter.clock ≤ now)
    (hwindow : first ≤ final) :
    TokenBucket.Admits ((limits authorityId).burst : ℚ)
      (refillPerSecond (limits authorityId).requestsPerMinute) first final
      (tokensAt (limits authorityId) (limiter.buckets.lookup authorityId) now) (seconds now)
      admitted := by
  have hlast := (hinvariant.bucketAt authorityId hclock).lastRefill
  have hbucket : BucketAdmits (limits authorityId) first final
      (Gateway.bucketAt (limits authorityId) (limiter.buckets.lookup authorityId) now) admitted := by
    cases hlookup : limiter.buckets.lookup authorityId with
    | some bucket => exact h.found hlookup
    | none =>
      rw [h.absent hlookup, BucketAdmits, Nat.cast_zero]
      exact TokenBucket.admits_full (Nat.cast_nonneg _) (refillPerSecond_nonneg _) hwindow
  have hrefill := TokenBucket.Admits.refill hbucket (refillPerSecond_nonneg _) (seconds_mono hlast)
  rwa [← seconds_sub hlast] at hrefill

/-- Another bucket is written. -/
theorem Limiter.Admits.frame (h : limiter.Admits limits first final authorityId admitted)
    (hsame : next.buckets.lookup authorityId = limiter.buckets.lookup authorityId) :
    next.Admits limits first final authorityId admitted :=
  ⟨fun hlookup => h.found (hsame ▸ hlookup), fun hlookup => h.absent (hsame ▸ hlookup)⟩

/-- The bucket of the authority is written. -/
theorem Limiter.Admits.write {buckets : LimiterState ℚ} {permits : List String} {now : Nat}
    {bucket : Bucket ℚ} (h : BucketAdmits (limits authorityId) first final bucket admitted) :
    Limiter.Admits limits first final authorityId
      ⟨OrderedMap.insert authorityId bucket buckets, permits, now⟩ admitted := by
  constructor
  · intro found hlookup
    rw [OrderedMap.lookup_insert, if_pos rfl] at hlookup
    rwa [← Option.some.inj hlookup]
  · intro hlookup
    rw [OrderedMap.lookup_insert, if_pos rfl] at hlookup
    cases hlookup

/-- A step of one authority leaves the buckets of the others as they are. -/
theorem Limiter.Step.frame (hstep : Limiter.Step limits limiter event next)
    (hother : authorityId ≠ event.authorityId) :
    next.buckets.lookup authorityId = limiter.buckets.lookup authorityId := by
  cases hstep with
  | accept hclock hacquire =>
    obtain ⟨-, -, -, rfl⟩ := acquire_ok hacquire
    exact (OrderedMap.lookup_insert _ _ _ _).trans (if_neg hother)
  | refuse hclock hacquire =>
    obtain rfl := acquire_error hacquire
    exact (OrderedMap.lookup_insert _ _ _ _).trans (if_neg hother)
  | @drop dropped hpermit =>
    rw [release]
    split
    · exact (OrderedMap.lookup_insert _ _ _ _).trans (if_neg hother)
    · rfl

theorem admittedIn_other (hother : authorityId ≠ event.authorityId) :
    event.admittedIn authorityId first final = false := by
  cases event with
  | dropped => rfl
  | acquired other now outcome =>
    cases outcome with
    | error error => rfl
    | ok permit => exact decide_eq_false fun hsame => hother hsame.1.symm

theorem Limiter.Admits.step (h : limiter.Admits limits first final authorityId admitted)
    (hinvariant : limiter.Invariant limits) (hwindow : first ≤ final)
    (hstep : Limiter.Step limits limiter event next) :
    next.Admits limits first final authorityId
      (admitted + if event.admittedIn authorityId first final then 1 else 0) := by
  by_cases hother : authorityId = event.authorityId
  · cases hstep with
    | @accept acquired permit now buckets hclock hacquire =>
      obtain rfl : authorityId = acquired := hother
      obtain ⟨rfl, -, htoken, rfl⟩ := acquire_ok hacquire
      have hrefill := h.refill hinvariant hclock hwindow
      by_cases hinside : first ≤ seconds now ∧ seconds now ≤ final
      · rw [LimiterEvent.admittedIn, if_pos (decide_eq_true ⟨rfl, hinside⟩)]
        apply Limiter.Admits.write
        rw [BucketAdmits, Nat.cast_add, Nat.cast_one]
        exact hrefill.spend (refillPerSecond_nonneg _) htoken hinside.1 hinside.2
      · rw [if_neg (by simpa [LimiterEvent.admittedIn] using hinside)]
        exact Limiter.Admits.write (hrefill.spend_outside hinside)
    | @refuse acquired now error buckets hclock hacquire =>
      obtain rfl : authorityId = acquired := hother
      obtain rfl := acquire_error hacquire
      exact Limiter.Admits.write (h.refill hinvariant hclock hwindow)
    | @drop dropped hpermit =>
      obtain rfl : authorityId = dropped := hother
      obtain ⟨bucket, hbucket, -⟩ := hinvariant.held hpermit
      rw [release_of_lookup hbucket]
      have hfound := h.found hbucket
      have hsame : BucketAdmits (limits authorityId) first final
          { bucket with active := bucket.active - 1 } admitted := hfound
      exact Limiter.Admits.write hsame
  · rw [admittedIn_other hother, if_neg (by decide)]
    exact h.frame (hstep.frame hother)

theorem Limiter.Run.admits {events : List LimiterEvent} (h : Limiter.Run limits events limiter)
    (hwindow : first ≤ final) (authorityId : String) :
    limiter.Admits limits first final authorityId (admissions authorityId first final events) := by
  induction h with
  | initial => exact ⟨nofun, fun _ => rfl⟩
  | snoc hrun hstep ih =>
    rw [admissions_snoc]
    exact ih.step hrun.invariant hwindow hstep

end Window

/-! ## The limiter -/

theorem tokensAt_none (limit : RateLimitConfig) (now : Nat) :
    tokensAt limit none now = limit.burst :=
  TokenBucket.refill_full (refillPerSecond_nonneg _) (seconds_nonneg _)

/-- The tokens that a refill leaves are those of the bucket before it, at each later time. -/
theorem tokensAt_refilled (limit : RateLimitConfig) (bucket : Option (Bucket ℚ)) {now later : Nat}
    (hlast : (bucketAt limit bucket now).lastRefill ≤ now) (hlater : now ≤ later) (active : Nat) :
    tokensAt limit (some ⟨tokensAt limit bucket now, now, active⟩) later =
      tokensAt limit bucket later := by
  have hrate := refillPerSecond_nonneg limit.requestsPerMinute
  cases bucket with
  | none =>
    rw [tokensAt_none, tokensAt_none]
    exact TokenBucket.refill_full hrate (seconds_nonneg _)
  | some bucket =>
    have hlast : bucket.lastRefill ≤ now := hlast
    have helapsed : seconds (now - bucket.lastRefill) + seconds (later - now) =
        seconds (later - bucket.lastRefill) := by
      rw [seconds_sub hlast, seconds_sub hlater, seconds_sub (hlast.trans hlater)]
      ring
    simp only [tokensAt, bucketAt, Option.getD_some]
    rw [TokenBucket.refill_refill hrate (seconds_nonneg _), helapsed]

/-- A refusal takes no slot and no token: at each later time the authority has what it would have had
without it. -/
theorem refusal_takes_nothing {limits : String → RateLimitConfig} {limiter next : Limiter}
    {authorityId : String} {now : Nat} {error : LimitError} (hinvariant : limiter.Invariant limits)
    (hstep : Limiter.Step limits limiter (.acquired authorityId now (.error error)) next) :
    next.permits = limiter.permits ∧ ∀ later, now ≤ later →
      tokensAt (limits authorityId) (next.buckets.lookup authorityId) later =
        tokensAt (limits authorityId) (limiter.buckets.lookup authorityId) later := by
  cases hstep with
  | refuse hclock hacquire =>
    obtain rfl := acquire_error hacquire
    have hlast := (hinvariant.bucketAt authorityId hclock).lastRefill
    refine ⟨rfl, fun later hlater => ?_⟩
    simp only [OrderedMap.lookup_insert, if_pos]
    exact tokensAt_refilled _ _ hlast hlater _

/-- What a run says of an authority: its slots are those of its permits and within their limit, no
drop finds a slot count of zero, its tokens are between none and a burst, and a window admits a burst
and what flows in at most. -/
structure Limiter.Bounded (limits : String → RateLimitConfig) (events : List LimiterEvent)
    (limiter : Limiter) (authorityId : String) : Prop where
  bucket : ∀ {bucket}, limiter.buckets.lookup authorityId = some bucket →
    bucket.active = limiter.permits.count authorityId ∧
      bucket.active ≤ (limits authorityId).maxConcurrent ∧
      0 ≤ bucket.tokens ∧ bucket.tokens ≤ (limits authorityId).burst
  absent : limiter.buckets.lookup authorityId = none → authorityId ∉ limiter.permits
  held : authorityId ∈ limiter.permits →
    ∃ bucket, limiter.buckets.lookup authorityId = some bucket ∧ 0 < bucket.active
  window : ∀ first duration : ℚ, 0 ≤ duration →
    (admissions authorityId first (first + duration) events : ℚ) ≤
      (limits authorityId).burst + (limits authorityId).requestsPerMinute * duration / 60

/-- What a step says of an authority: an admission finds a free slot, a refusal takes nothing, and no
other authority changes its bucket. -/
structure Limiter.Separate (limits : String → RateLimitConfig) (limiter : Limiter)
    (event : LimiterEvent) (next : Limiter) (authorityId : String) : Prop where
  admitted : ∀ now permit, event = .acquired authorityId now (.ok permit) →
    (bucketAt (limits authorityId) (limiter.buckets.lookup authorityId) now).active <
      (limits authorityId).maxConcurrent
  refused : ∀ now error, event = .acquired authorityId now (.error error) →
    next.permits.count authorityId = limiter.permits.count authorityId ∧
      ∀ later, now ≤ later →
        tokensAt (limits authorityId) (next.buckets.lookup authorityId) later =
          tokensAt (limits authorityId) (limiter.buckets.lookup authorityId) later
  others : event.authorityId ≠ authorityId →
    next.buckets.lookup authorityId = limiter.buckets.lookup authorityId

/-- The limiter keeps its bounds over every run and for every authority. -/
theorem rate_limiter_bounds {limits : String → RateLimitConfig} {events : List LimiterEvent}
    {limiter : Limiter} (hrun : Limiter.Run limits events limiter) (authorityId : String) :
    limiter.Bounded limits events authorityId ∧
      ∀ event next, Limiter.Step limits limiter event next →
        limiter.Separate limits event next authorityId := by
  have hinvariant := hrun.invariant
  refine ⟨⟨?_, ?_, hinvariant.held, ?_⟩, ?_⟩
  · intro bucket hbucket
    have hsound := hinvariant.sound hbucket
    exact ⟨hsound.active, hsound.slots, hsound.tokens.1, hsound.tokens.2⟩
  · intro hnone
    exact List.count_eq_zero.mp (hinvariant.absent hnone)
  · intro first duration hduration
    have hwindow : first ≤ first + duration := le_add_of_nonneg_right hduration
    have hadmits := hrun.admits hwindow authorityId
    have hbound : (admissions authorityId first (first + duration) events : ℚ) ≤
        (limits authorityId).burst + (first + duration - first) *
          refillPerSecond (limits authorityId).requestsPerMinute := by
      cases hbucket : limiter.buckets.lookup authorityId with
      | some bucket => exact (hadmits.found hbucket).window
      | none =>
        rw [hadmits.absent hbucket, Nat.cast_zero, add_sub_cancel_left]
        have hrate := refillPerSecond_nonneg (limits authorityId).requestsPerMinute
        positivity
    refine hbound.trans_eq ?_
    rw [add_sub_cancel_left, refillPerSecond]
    ring
  · intro event next hstep
    refine ⟨?_, ?_, fun hother => hstep.frame hother.symm⟩
    · rintro now permit rfl
      cases hstep with
      | accept hclock hacquire => exact (acquire_ok hacquire).2.1
    · rintro now error rfl
      obtain ⟨hpermits, htokens⟩ := refusal_takes_nothing hinvariant hstep
      exact ⟨by rw [hpermits], htokens⟩

def oneSlot : RateLimitConfig := { requestsPerMinute := 1, burst := 2, maxConcurrent := 1 }

/-- A tenant takes its only slot, is refused the next, and drops its permit. -/
theorem rate_limiter_bounds_one_slot : ∃ limiter,
    Limiter.Run (fun _ => oneSlot)
        [.acquired "tenant-a" 0 (.ok "tenant-a"), .acquired "tenant-a" 5 (.error .concurrency),
          .dropped "tenant-a"] limiter ∧
      limiter.Bounded (fun _ => oneSlot)
        [.acquired "tenant-a" 0 (.ok "tenant-a"), .acquired "tenant-a" 5 (.error .concurrency),
          .dropped "tenant-a"] "tenant-a" := by
  have htokens : (1 : ℚ) ≤ tokensAt oneSlot none 0 := by
    rw [tokensAt_none, oneSlot]
    norm_num
  obtain ⟨buckets, hfirst⟩ : ∃ buckets, acquire exactTokens [] "tenant-a" oneSlot 0 =
      (.ok "tenant-a", buckets) := acquire_of_free (by decide) htokens
  have hadmitted : Limiter.Run (fun _ => oneSlot) [.acquired "tenant-a" 0 (.ok "tenant-a")]
      ⟨buckets, ["tenant-a"], 0⟩ := .snoc .initial (.accept (le_refl 0) hfirst)
  obtain ⟨bucket, hbucket, hactive⟩ := hadmitted.invariant.held (List.mem_singleton.mpr rfl)
  have hbusy : oneSlot.maxConcurrent ≤
      (bucketAt oneSlot (List.lookup "tenant-a" buckets) 5).active := by
    rw [hbucket]
    exact hactive
  obtain ⟨buckets', hsecond⟩ := acquire_of_busy hbusy
  have hrefused := hadmitted.snoc (.refuse (Nat.zero_le 5) hsecond)
  have hdropped := hrefused.snoc (.drop (List.mem_singleton.mpr rfl))
  exact ⟨_, hdropped, (rate_limiter_bounds hdropped "tenant-a").1⟩

end Postgresem.Gateway

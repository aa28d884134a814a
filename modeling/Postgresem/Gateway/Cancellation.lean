import Mathlib.Logic.Relation
import Mathlib.Tactic.ByContra
import Mathlib.Tactic.SplitIfs

/-! The cancellation of a streamed request. Its worker registers a handle to its session before its
statement runs, the guard of the response cancels through that handle when it is dropped before there
was an answer, and the two come in any order. -/
namespace Postgresem.Gateway

section Control
variable {η : Type}

structure CancellationState (η : Type) where
  handle : Option η := none
  disconnected : Bool := false

/-- What the worker and the guard share. Each operation on the state holds its lock. -/
structure CancellationControl (η : Type) where
  state : CancellationState η := {}
  workerFinished : Bool := false

/-- The worker may go on when its client is still there. -/
def CancellationControl.register (control : CancellationControl η) (handle : η) :
    Bool × CancellationControl η :=
  if control.state.disconnected then (false, control)
  else (true, { control with state := { control.state with handle := some handle } })

def CancellationControl.disconnect (control : CancellationControl η) :
    Option η × CancellationControl η :=
  (control.state.handle, { control with state := { control.state with disconnected := true } })

def CancellationControl.finish (control : CancellationControl η) : CancellationControl η :=
  { control with workerFinished := true }

theorem register_eq_true {control control' : CancellationControl η} {handle : η}
    (h : control.register handle = (true, control')) : control.state.disconnected = false ∧
      control' = { control with state := { control.state with handle := some handle } } := by
  unfold CancellationControl.register at h
  split_ifs at h with hdisconnected
  · cases (Prod.mk.inj h).1
  · exact ⟨Bool.eq_false_iff.mpr hdisconnected, (Prod.mk.inj h).2.symm⟩

theorem register_eq_false {control control' : CancellationControl η} {handle : η}
    (h : control.register handle = (false, control')) :
    control.state.disconnected = true ∧ control' = control := by
  unfold CancellationControl.register at h
  split_ifs at h with hdisconnected
  · exact ⟨hdisconnected, (Prod.mk.inj h).2.symm⟩
  · cases (Prod.mk.inj h).1

end Control

/-! ## One streamed request -/

section Exchange
variable {η : Type}

/-- How far the worker has come. It is refused when it registers for a client that is gone. -/
inductive Worker (η : Type) where
  | preparing
  | executing (handle : η)
  | refused
  | answered
  | finished

/-- The stream waits with its guard armed. The guard is disarmed when there is an answer to deliver. -/
inductive ResponseStream where
  | waiting
  | delivered
  | dropped

/-- Why a thread does not cancel any more. -/
inductive CancellerEnd where
  | notStarted
  | expired
  | workerFinished

/-- The thread that an armed guard starts for the handle it found. -/
inductive Canceller (η : Type) where
  | absent
  | starting (handle : η)
  | looking (handle : η)
  | cancelling (handle : η)
  | ended (reason : CancellerEnd)

/-- The session that a thread is there for. -/
def Canceller.target : Canceller η → Option η
  | .starting handle | .looking handle | .cancelling handle => some handle
  | .absent | .ended _ => none

structure Exchange (η : Type) where
  control : CancellationControl η := {}
  worker : Worker η := .preparing
  sent : Bool := false
  stream : ResponseStream := .waiting
  canceller : Canceller η := .absent
  /-- The sessions that were asked to cancel, the last first. -/
  cancelled : List η := []

/-- What the worker, the stream or the thread does between two actions of the others. A worker that
panics answers too: the channel of its answer closes. -/
inductive Exchange.Step : Exchange η → Exchange η → Prop
  | register {exchange : Exchange η} {handle : η} {control : CancellationControl η}
      (hworker : exchange.worker = .preparing)
      (h : exchange.control.register handle = (true, control)) :
      Step exchange { exchange with control, worker := .executing handle }
  | refuse {exchange : Exchange η} {handle : η} {control : CancellationControl η}
      (hworker : exchange.worker = .preparing)
      (h : exchange.control.register handle = (false, control)) :
      Step exchange { exchange with control, worker := .refused }
  | answer {exchange : Exchange η} (hanswered : exchange.worker ≠ .answered)
      (hfinished : exchange.worker ≠ .finished) :
      Step exchange { exchange with worker := .answered, sent := true }
  | finish {exchange : Exchange η} (h : exchange.worker = .answered) :
      Step exchange { exchange with control := exchange.control.finish, worker := .finished }
  | deliver {exchange : Exchange η} (hstream : exchange.stream = .waiting)
      (hsent : exchange.sent = true) : Step exchange { exchange with stream := .delivered }
  | drop {exchange : Exchange η} {handle : Option η} {control : CancellationControl η}
      (hstream : exchange.stream = .waiting) (h : exchange.control.disconnect = (handle, control)) :
      Step exchange
        { exchange with
          control
          stream := .dropped
          canceller := handle.elim .absent .starting }
  | start {exchange : Exchange η} {handle : η} (h : exchange.canceller = .starting handle) :
      Step exchange { exchange with canceller := .looking handle }
  | notStarted {exchange : Exchange η} {handle : η} (h : exchange.canceller = .starting handle) :
      Step exchange { exchange with canceller := .ended .notStarted }
  | look {exchange : Exchange η} {handle : η} (h : exchange.canceller = .looking handle)
      (hfinished : exchange.control.workerFinished = false) :
      Step exchange { exchange with canceller := .cancelling handle }
  | cancel {exchange : Exchange η} {handle : η} (h : exchange.canceller = .cancelling handle) :
      Step exchange
        { exchange with canceller := .looking handle, cancelled := handle :: exchange.cancelled }
  | stop {exchange : Exchange η} {handle : η} (h : exchange.canceller = .looking handle)
      (hfinished : exchange.control.workerFinished = true) :
      Step exchange { exchange with canceller := .ended .workerFinished }
  | expire {exchange : Exchange η} {handle : η} (h : exchange.canceller = .looking handle) :
      Step exchange { exchange with canceller := .ended .expired }

def Exchange.Reachable (exchange : Exchange η) : Prop := Relation.ReflTransGen Exchange.Step {} exchange

/-- What holds between the worker, the stream and the thread. -/
structure Exchange.Sound (exchange : Exchange η) : Prop where
  executing : ∀ {handle}, exchange.worker = .executing handle →
    exchange.control.state.handle = some handle
  finished : exchange.control.workerFinished = true → exchange.worker = .finished
  disconnected : exchange.control.state.disconnected = true ↔ exchange.stream = .dropped
  quiet : exchange.stream ≠ .dropped → exchange.canceller = .absent ∧ exchange.cancelled = []
  unregistered : exchange.stream = .dropped → exchange.canceller = .absent →
    exchange.control.state.handle = none
  target : ∀ {handle}, exchange.canceller.target = some handle →
    exchange.control.state.handle = some handle
  cancelled : ∀ handle ∈ exchange.cancelled, exchange.control.state.handle = some handle
  stopped : exchange.canceller = .ended .workerFinished → exchange.control.workerFinished = true

theorem Exchange.sound_initial : Exchange.Sound ({} : Exchange η) := by
  constructor <;> simp [Canceller.target]

/-- A thread that moves on, but does not stop for the worker, keeps what holds. -/
theorem Exchange.Sound.moves {exchange : Exchange η} (h : exchange.Sound) {canceller : Canceller η}
    {handle : η} (htarget : exchange.canceller.target = some handle)
    (hnext : canceller.target = some handle ∨ ∃ reason, canceller = .ended reason ∧
      (reason = .workerFinished → exchange.control.workerFinished = true)) :
    Exchange.Sound { exchange with canceller } := by
  have hdropped : exchange.stream = .dropped := by
    by_contra hstream
    rw [(h.quiet hstream).1] at htarget
    cases htarget
  have hregistered := h.target htarget
  refine { h with quiet := ?_, unregistered := ?_, target := ?_, stopped := ?_ }
  · exact fun hstream => absurd hdropped hstream
  · rintro - rfl
    rcases hnext with hnext | ⟨reason, hnext, -⟩ <;> cases hnext
  · intro other hother
    rcases hnext with hnext | ⟨reason, rfl, -⟩
    · rw [hregistered, ← hnext, ← hother]
    · cases hother
  · rintro rfl
    rcases hnext with hnext | ⟨reason, hnext, hfinished⟩
    · cases hnext
    · exact hfinished (Canceller.ended.inj hnext).symm

theorem Exchange.Step.sound {exchange exchange' : Exchange η} (hstep : Exchange.Step exchange exchange')
    (h : exchange.Sound) : exchange'.Sound := by
  cases hstep with
  | register hworker hregister =>
    obtain ⟨hconnected, rfl⟩ := register_eq_true hregister
    have hstream : exchange.stream ≠ .dropped := by
      intro hdropped
      rw [h.disconnected.mpr hdropped] at hconnected
      cases hconnected
    obtain ⟨habsent, hnone⟩ := h.quiet hstream
    refine ⟨?_, ?_, h.disconnected, h.quiet, ?_, ?_, ?_, h.stopped⟩
    · intro handle hexecuting
      rw [Worker.executing.inj hexecuting]
    · intro hfinished
      rw [h.finished hfinished] at hworker
      cases hworker
    · exact fun hdropped => absurd hdropped hstream
    · intro handle htarget
      rw [habsent] at htarget
      cases htarget
    · intro handle hmem
      rw [hnone] at hmem
      cases hmem
  | refuse hworker hregister =>
    obtain ⟨-, rfl⟩ := register_eq_false hregister
    refine { h with executing := ?_, finished := ?_ }
    · intro handle hexecuting
      cases hexecuting
    · intro hfinished
      rw [h.finished hfinished] at hworker
      cases hworker
  | answer hanswered hfinished =>
    refine { h with executing := ?_, finished := ?_ }
    · intro handle hexecuting
      cases hexecuting
    · exact fun hdone => absurd (h.finished hdone) hfinished
  | finish hanswered =>
    refine ⟨?_, ?_, h.disconnected, h.quiet, h.unregistered, h.target, h.cancelled, ?_⟩
    · intro handle hexecuting
      cases hexecuting
    · exact fun _ => rfl
    · exact fun _ => rfl
  | deliver hstream hsent =>
    have hquiet := h.quiet (by rw [hstream]; exact nofun)
    refine { h with disconnected := ?_, quiet := ?_, unregistered := ?_ }
    · rw [h.disconnected, hstream]
      simp
    · exact fun _ => hquiet
    · intro hdropped
      cases hdropped
  | drop hstream hdisconnect =>
    obtain ⟨rfl, rfl⟩ := Prod.mk.inj hdisconnect
    obtain ⟨-, hnone⟩ := h.quiet (by rw [hstream]; exact nofun)
    refine ⟨h.executing, h.finished, by simp, by simp, ?_, ?_, h.cancelled, ?_⟩
    · intro _ habsent
      cases hhandle : exchange.control.state.handle with
      | none => rfl
      | some handle =>
        rw [hhandle] at habsent
        cases habsent
    · intro handle htarget
      cases hhandle : exchange.control.state.handle with
      | none =>
        rw [hhandle] at htarget
        cases htarget
      | some registered =>
        rw [hhandle] at htarget
        exact htarget
    · intro hended
      cases hhandle : exchange.control.state.handle with
      | none =>
        rw [hhandle] at hended
        cases hended
      | some registered =>
        rw [hhandle] at hended
        cases hended
  | start hcanceller => exact h.moves (by rw [hcanceller]; rfl) (.inl rfl)
  | notStarted hcanceller => exact h.moves (by rw [hcanceller]; rfl) (.inr ⟨_, rfl, nofun⟩)
  | look hcanceller => exact h.moves (by rw [hcanceller]; rfl) (.inl rfl)
  | @cancel handle hcanceller =>
    have htarget : exchange.canceller.target = some handle := by
      rw [hcanceller]
      rfl
    have hmoves : Exchange.Sound { exchange with canceller := .looking handle } :=
      h.moves htarget (.inl rfl)
    have hdropped : exchange.stream = .dropped := by
      by_contra hstream
      rw [(h.quiet hstream).1] at hcanceller
      cases hcanceller
    refine { hmoves with quiet := ?_, cancelled := ?_ }
    · exact fun hstream => absurd hdropped hstream
    · intro other hmem
      rcases List.mem_cons.mp hmem with rfl | hmem
      · exact h.target htarget
      · exact h.cancelled other hmem
  | stop hcanceller hfinished =>
    exact h.moves (by rw [hcanceller]; rfl) (.inr ⟨_, rfl, fun _ => hfinished⟩)
  | expire hcanceller => exact h.moves (by rw [hcanceller]; rfl) (.inr ⟨_, rfl, nofun⟩)

theorem Exchange.Reachable.sound {exchange : Exchange η} (h : exchange.Reachable) : exchange.Sound := by
  induction h with
  | refl => exact Exchange.sound_initial
  | tail _ hstep ih => exact hstep.sound ih

/-- A worker of a dropped stream that has not begun its statement does not begin it later. -/
theorem Exchange.Step.idle {exchange exchange' : Exchange η} (hstep : Exchange.Step exchange exchange')
    (h : exchange.Sound)
    (hidle : exchange.stream = .dropped ∧ ∀ handle, exchange.worker ≠ .executing handle) :
    exchange'.stream = .dropped ∧ ∀ handle, exchange'.worker ≠ .executing handle := by
  obtain ⟨hdropped, hworker⟩ := hidle
  cases hstep with
  | register _ hregister =>
    cases (register_eq_true hregister).1.symm.trans (h.disconnected.mpr hdropped)
  | refuse => exact ⟨hdropped, nofun⟩
  | answer => exact ⟨hdropped, nofun⟩
  | finish => exact ⟨hdropped, nofun⟩
  | deliver hstream => cases hdropped.symm.trans hstream
  | drop => exact ⟨rfl, hworker⟩
  | _ => exact ⟨hdropped, hworker⟩

/-- The thread is there for the session, or it was not started, or its time is up. -/
def Canceller.Follows (canceller : Canceller η) (handle : η) : Prop :=
  canceller.target = some handle ∨ canceller = .ended .notStarted ∨ canceller = .ended .expired

/-- In whatever order the worker, the stream and the thread come: a statement whose client is gone has a
thread that cancels it, as long as the thread could be started and its time is not up; a worker that did
not begin its statement before its client was gone never does; and the only session that is ever cancelled
is that of the worker, and only when there was no answer to deliver. -/
theorem gone_client_is_cancelled {exchange : Exchange η} (h : exchange.Reachable) :
    (exchange.stream = .dropped → ∀ handle, exchange.worker = .executing handle →
      exchange.canceller.Follows handle) ∧
    (exchange.stream = .dropped → exchange.worker = .preparing →
      ∀ later, Relation.ReflTransGen Exchange.Step exchange later →
        ∀ handle, later.worker ≠ .executing handle) ∧
    (∀ handle ∈ exchange.cancelled, exchange.stream = .dropped ∧
      exchange.control.state.handle = some handle) ∧
    (exchange.stream = .delivered → exchange.canceller = .absent ∧ exchange.cancelled = []) := by
  have hsound := h.sound
  refine ⟨?_, ?_, ?_, ?_⟩
  · intro hdropped handle hexecuting
    have hregistered := hsound.executing hexecuting
    cases hcanceller : exchange.canceller with
    | absent =>
      rw [hsound.unregistered hdropped hcanceller] at hregistered
      cases hregistered
    | starting target | looking target | cancelling target =>
      have htarget : exchange.canceller.target = some target := by
        rw [hcanceller]
        rfl
      rw [hsound.target htarget] at hregistered
      exact .inl hregistered
    | ended reason =>
      cases reason with
      | notStarted => exact .inr (.inl rfl)
      | expired => exact .inr (.inr rfl)
      | workerFinished =>
        rw [hsound.finished (hsound.stopped hcanceller)] at hexecuting
        cases hexecuting
  · intro hdropped hpreparing later hsteps
    have hidle : later.Reachable ∧ later.stream = .dropped ∧
        ∀ handle, later.worker ≠ .executing handle := by
      induction hsteps with
      | refl => exact ⟨h, hdropped, by rw [hpreparing]; exact nofun⟩
      | tail _ hstep ih => exact ⟨ih.1.tail hstep, hstep.idle ih.1.sound ih.2⟩
    exact hidle.2.2
  · intro handle hmem
    refine ⟨?_, hsound.cancelled handle hmem⟩
    by_contra hstream
    rw [(hsound.quiet hstream).2] at hmem
    cases hmem
  · intro hdelivered
    exact hsound.quiet (by rw [hdelivered]; exact nofun)

/-- The client of a statement is gone. -/
theorem gone_client_is_cancelled_once : ∃ exchange : Exchange Nat,
    exchange.worker = .executing 7 ∧ exchange.canceller.Follows 7 := by
  have hregister : ({} : CancellationControl Nat).register 7 = (true, _) := rfl
  have hregistered : Exchange.Reachable _ := .single (.register rfl hregister)
  have hdropped := hregistered.tail (.drop rfl rfl)
  exact ⟨_, rfl, (gone_client_is_cancelled hdropped).1 rfl 7 rfl⟩

end Exchange

end Postgresem.Gateway

import Mathlib.Data.List.Nodup
import Mathlib.Logic.Function.Basic
import Mathlib.Logic.Relation

/-! Concurrent transactions over a server with READ COMMITTED isolation. A statement sees what is
committed when it runs, together with the writes of its own transaction. The writes of a transaction
reach the store together, when it commits. A statement that needs a lock runs only while no other
open transaction holds it, and locks are held until the transaction ends. -/
namespace ReadCommitted

/-- A transaction program. `τ` is its control state, with its local variables. -/
structure Protocol (σ ω κ τ : Type) where
  apply : σ → ω → σ
  begins : τ → Prop
  /-- One statement: the store it sees, the control state before, what it writes, the locks it
  takes, and the control state after. A statement that raises has no transition. -/
  statement : σ → τ → List ω → List κ → τ → Prop
  commits : τ → Prop
  /-- Writes of other connections, each a transaction of its own. -/
  external : σ → ω → Prop

structure Session (ω κ τ : Type) where
  control : τ
  writes : List ω
  locks : List κ

inductive Status (ω κ τ : Type) where
  | idle
  | active (session : Session ω κ τ)
  | ended

/-- `log` holds the committed transactions in the order of their commits. -/
structure Server (σ ω κ τ : Type) where
  store : σ
  status : Nat → Status ω κ τ
  log : List (Nat × Session ω κ τ)

variable {σ ω κ τ : Type}

def Server.initial (store : σ) : Server σ ω κ τ :=
  { store, status := fun _ => .idle, log := [] }

def Server.setStatus (server : Server σ ω κ τ) (i : Nat) (status : Status ω κ τ) :
    Server σ ω κ τ :=
  { server with status := Function.update server.status i status }

/-- No other open transaction holds one of these locks. -/
def Server.Free (server : Server σ ω κ τ) (i : Nat) (locks : List κ) : Prop :=
  ∀ j other, j ≠ i → server.status j = .active other → ∀ lock ∈ locks, lock ∉ other.locks

namespace Protocol
variable (p : Protocol σ ω κ τ)

def start (control : τ) : Session ω κ τ := { control, writes := [], locks := [] }

/-- The committed store with a transaction's own writes on top. -/
def view (store : σ) (session : Session ω κ τ) : σ := session.writes.foldl p.apply store

/-- The server once a transaction has committed. -/
def commit (server : Server σ ω κ τ) (i : Nat) (session : Session ω κ τ) : Server σ ω κ τ :=
  { (server.setStatus i .ended) with
    store := p.view server.store session, log := server.log ++ [(i, session)] }

inductive Step : Server σ ω κ τ → Server σ ω κ τ → Prop
  | start {server i control} : server.status i = .idle → p.begins control →
      Step server (server.setStatus i (.active (Protocol.start control)))
  | statement {server i session writes locks control} : server.status i = .active session →
      p.statement (p.view server.store session) session.control writes locks control →
      server.Free i locks →
      Step server (server.setStatus i (.active
        { control, writes := session.writes ++ writes, locks := session.locks ++ locks }))
  | commit {server i session} : server.status i = .active session → p.commits session.control →
      Step server (p.commit server i session)
  -- A rollback, a lost connection and a crash all drop the writes and release the locks.
  | abort {server i session} : server.status i = .active session →
      Step server (server.setStatus i .ended)
  | external {server write} : p.external server.store write →
      Step server { server with store := p.apply server.store write }

/-- The servers that any number of transactions, in any interleaving, can lead to. -/
def Reachable (store : σ) (server : Server σ ω κ τ) : Prop :=
  Relation.ReflTransGen p.Step (Server.initial store) server

end Protocol

/-- Open transactions hold disjoint locks. -/
def Server.Exclusive (server : Server σ ω κ τ) : Prop :=
  ∀ i j s t, i ≠ j → server.status i = .active s → server.status j = .active t →
    ∀ lock ∈ s.locks, lock ∉ t.locks

theorem Server.exclusive_initial (store : σ) : (Server.initial store : Server σ ω κ τ).Exclusive := by
  intro i j s t _ hs
  cases hs

theorem Server.setStatus_self (server : Server σ ω κ τ) (i : Nat) (status : Status ω κ τ) :
    (server.setStatus i status).status i = status := by
  simp [Server.setStatus]

theorem Server.setStatus_of_ne (server : Server σ ω κ τ) {i j : Nat} (h : j ≠ i)
    (status : Status ω κ τ) : (server.setStatus i status).status j = server.status j := by
  simp [Server.setStatus, h]

/-- An open transaction after a status change is the changed one or one that was open before. -/
theorem Server.active_setStatus {server : Server σ ω κ τ} {i j : Nat} {status : Status ω κ τ}
    {s : Session ω κ τ} (h : (server.setStatus i status).status j = .active s) :
    j = i ∧ status = .active s ∨ j ≠ i ∧ server.status j = .active s := by
  by_cases hj : j = i
  · subst hj
    rw [Server.setStatus_self] at h
    exact Or.inl ⟨rfl, h⟩
  · rw [Server.setStatus_of_ne _ hj] at h
    exact Or.inr ⟨hj, h⟩

/-- A transaction that takes only free locks keeps the locks disjoint. -/
theorem Server.Exclusive.setActive {server : Server σ ω κ τ} (h : server.Exclusive) {i : Nat}
    {s : Session ω κ τ} (hfree : server.Free i s.locks) :
    (server.setStatus i (.active s)).Exclusive := by
  intro j k t u hjk ht hu lock hl hl'
  rcases Server.active_setStatus ht with ⟨hj, hs⟩ | ⟨hj, ht'⟩ <;>
    rcases Server.active_setStatus hu with ⟨hk, hs'⟩ | ⟨hk, hu'⟩
  · exact hjk (hj.trans hk.symm)
  · cases hs
    exact hfree k u hk hu' lock hl hl'
  · cases hs'
    exact hfree j t hj ht' lock hl' hl
  · exact h j k t u hjk ht' hu' lock hl hl'

theorem Server.Exclusive.setEnded {server : Server σ ω κ τ} (h : server.Exclusive) (i : Nat) :
    (server.setStatus i .ended).Exclusive := by
  intro j k t u hjk ht hu
  rcases Server.active_setStatus ht with ⟨_, hs⟩ | ⟨_, ht⟩
  · cases hs
  · rcases Server.active_setStatus hu with ⟨_, hs'⟩ | ⟨_, hu⟩
    · cases hs'
    · exact h j k t u hjk ht hu

/-- The locks a session already holds are free for it, so it may take free ones on top. -/
theorem Server.Exclusive.free_append {server : Server σ ω κ τ} (h : server.Exclusive) {i : Nat}
    {s : Session ω κ τ} (hs : server.status i = .active s) {locks : List κ}
    (hfree : server.Free i locks) : server.Free i (s.locks ++ locks) := by
  intro j other hj ho lock hl
  rcases List.mem_append.mp hl with hl | hl
  · exact h i j s other (Ne.symm hj) hs ho lock hl
  · exact hfree j other hj ho lock hl

theorem Protocol.Step.exclusive {p : Protocol σ ω κ τ} {server next : Server σ ω κ τ}
    (hstep : p.Step server next) (h : server.Exclusive) : next.Exclusive := by
  cases hstep with
  | start _ _ =>
    apply h.setActive
    intro _ _ _ _ lock hl
    cases hl
  | statement hs _ hfree => exact h.setActive (h.free_append hs hfree)
  | commit _ _ => exact h.setEnded _
  | abort _ => exact h.setEnded _
  | external _ => exact h

/-- Executors that committed have ended, each with one transaction. -/
structure Server.LogEnded (server : Server σ ω κ τ) : Prop where
  ended : ∀ entry ∈ server.log, server.status entry.1 = .ended
  nodup : (server.log.map Prod.fst).Nodup

theorem Server.LogEnded.setStatus {server : Server σ ω κ τ} (h : server.LogEnded) {i : Nat}
    (hi : server.status i ≠ .ended) (status : Status ω κ τ) :
    (server.setStatus i status).LogEnded := by
  refine ⟨fun entry hentry => ?_, h.nodup⟩
  have hended := h.ended entry hentry
  have hne : entry.1 ≠ i := by
    rintro rfl
    exact hi hended
  rw [Server.setStatus_of_ne _ hne]
  exact hended

theorem Protocol.Step.logEnded {p : Protocol σ ω κ τ} {server next : Server σ ω κ τ}
    (hstep : p.Step server next) (h : server.LogEnded) : next.LogEnded := by
  cases hstep with
  | start hs _ => exact h.setStatus (by simp [hs]) _
  | statement hs _ _ => exact h.setStatus (by simp [hs]) _
  | abort hs => exact h.setStatus (by simp [hs]) _
  | external _ => exact ⟨h.ended, h.nodup⟩
  | @commit i session hs _ =>
    have hset := h.setStatus (by simp [hs] : server.status i ≠ .ended) .ended
    constructor
    · intro entry hentry
      rcases List.mem_append.mp hentry with hentry | hentry
      · exact hset.ended entry hentry
      · rw [List.mem_singleton.mp hentry]
        exact Server.setStatus_self _ _ _
    · rw [show (p.commit server i session).log = server.log ++ [(i, session)] from rfl,
        List.map_append, List.nodup_append]
      refine ⟨h.nodup, by simp, ?_⟩
      intro a ha b hb hab
      obtain ⟨entry, hentry, rfl⟩ := List.mem_map.mp ha
      have hended := h.ended entry hentry
      simp only [List.map_cons, List.map_nil, List.mem_singleton] at hb
      rw [hab, hb, hs] at hended
      cases hended

/-- A property of the committed store and the log of commits, together with a property of each open
transaction against the committed store. The commit of one transaction keeps what the others rely on
because their locks are disjoint from its own. -/
structure Protocol.Invariant (p : Protocol σ ω κ τ) where
  onStore : σ → List (Nat × Session ω κ τ) → Prop
  onSession : σ → Session ω κ τ → Prop
  start : ∀ {store control}, p.begins control → onSession store (Protocol.start control)
  statement : ∀ {store log session writes locks control}, onStore store log →
    onSession store session →
    p.statement (p.view store session) session.control writes locks control →
    onSession store { control, writes := session.writes ++ writes, locks := session.locks ++ locks }
  commit : ∀ {store log session} (i : Nat), onStore store log → onSession store session →
    p.commits session.control → onStore (p.view store session) (log ++ [(i, session)])
  frame : ∀ {store log session other}, onStore store log → onSession store session →
    p.commits session.control → onSession store other →
    (∀ lock ∈ other.locks, lock ∉ session.locks) → onSession (p.view store session) other
  external : ∀ {store log write}, onStore store log → p.external store write →
    onStore (p.apply store write) log
  externalFrame : ∀ {store write session}, p.external store write → onSession store session →
    onSession (p.apply store write) session

namespace Protocol.Invariant
variable {p : Protocol σ ω κ τ} (inv : p.Invariant)

/-- What the invariant says of a server. -/
structure Holds (server : Server σ ω κ τ) : Prop where
  store : inv.onStore server.store server.log
  session : ∀ i s, server.status i = .active s → inv.onSession server.store s

theorem Holds.setActive {server : Server σ ω κ τ} (h : inv.Holds server) (i : Nat)
    {s : Session ω κ τ} (hs : inv.onSession server.store s) :
    inv.Holds (server.setStatus i (.active s)) := by
  refine ⟨h.store, fun j t ht => ?_⟩
  rcases Server.active_setStatus ht with ⟨_, hst⟩ | ⟨_, ht⟩
  · cases hst
    exact hs
  · exact h.session j t ht

theorem step {server next : Server σ ω κ τ} (hstep : p.Step server next)
    (hexclusive : server.Exclusive) (h : inv.Holds server) : inv.Holds next := by
  cases hstep with
  | start _ hbegins => exact h.setActive inv _ (inv.start hbegins)
  | statement hs hstatement _ =>
    exact h.setActive inv _ (inv.statement h.store (h.session _ _ hs) hstatement)
  | @commit i session hs hcommits =>
    refine ⟨inv.commit _ h.store (h.session _ _ hs) hcommits, fun j t ht => ?_⟩
    rcases Server.active_setStatus ht with ⟨_, hst⟩ | ⟨hj, ht⟩
    · cases hst
    · exact inv.frame h.store (h.session _ _ hs) hcommits (h.session j t ht)
        (hexclusive j i t session hj ht hs)
  | abort _ =>
    refine ⟨h.store, fun j t ht => ?_⟩
    rcases Server.active_setStatus ht with ⟨_, hst⟩ | ⟨_, ht⟩
    · cases hst
    · exact h.session j t ht
  | external hexternal =>
    exact ⟨inv.external h.store hexternal,
      fun j t ht => inv.externalFrame hexternal (h.session j t ht)⟩

/-- An invariant of the empty log holds after every run. -/
theorem reachable {store : σ} {server : Server σ ω κ τ} (hrun : p.Reachable store server)
    (hstore : inv.onStore store []) : inv.Holds server ∧ server.Exclusive := by
  induction hrun with
  | refl =>
    refine ⟨⟨hstore, fun i s hs => ?_⟩, Server.exclusive_initial store⟩
    cases hs
  | tail _ hstep ih => exact ⟨inv.step hstep ih.2 ih.1, hstep.exclusive ih.2⟩

end Protocol.Invariant

/-- No other transaction is open. -/
def Server.Alone (server : Server σ ω κ τ) (i : Nat) : Prop :=
  ∀ j session, j ≠ i → server.status j ≠ .active session

theorem Server.setStatus_setStatus (server : Server σ ω κ τ) (i : Nat) (first second : Status ω κ τ) :
    (server.setStatus i first).setStatus i second = server.setStatus i second := by
  simp [Server.setStatus, Function.update_idem]

/-- A transaction that runs alone never waits. -/
theorem Protocol.Reachable.statement_alone {p : Protocol σ ω κ τ} {store : σ}
    {server : Server σ ω κ τ} {i : Nat} {session : Session ω κ τ} {writes : List ω} {locks : List κ}
    {control : τ} (hrun : p.Reachable store (server.setStatus i (.active session)))
    (halone : server.Alone i)
    (hstatement : p.statement (p.view server.store session) session.control writes locks control) :
    p.Reachable store (server.setStatus i (.active
      { control, writes := session.writes ++ writes, locks := session.locks ++ locks })) := by
  rw [← Server.setStatus_setStatus server i (.active session)]
  refine hrun.tail (.statement (Server.setStatus_self _ _ _) hstatement ?_)
  intro j other hj hactive
  rw [Server.setStatus_of_ne _ hj] at hactive
  exact absurd hactive (halone j other hj)

theorem Protocol.Reachable.commit {p : Protocol σ ω κ τ} {store : σ} {server : Server σ ω κ τ}
    {i : Nat} {session : Session ω κ τ}
    (hrun : p.Reachable store (server.setStatus i (.active session)))
    (hcommits : p.commits session.control) : p.Reachable store (p.commit server i session) := by
  have hstep := hrun.tail (.commit (Server.setStatus_self _ _ _) hcommits)
  unfold Protocol.commit at hstep
  rw [Server.setStatus_setStatus] at hstep
  exact hstep

theorem Protocol.Reachable.logEnded {p : Protocol σ ω κ τ} {store : σ} {server : Server σ ω κ τ}
    (hrun : p.Reachable store server) : server.LogEnded := by
  induction hrun with
  | refl =>
    refine ⟨fun entry hentry => ?_, List.nodup_nil⟩
    cases hentry
  | tail _ hstep ih => exact hstep.logEnded ih

end ReadCommitted

import Mathlib.Data.Finset.Erase
import Mathlib.Data.Finset.Insert
import Mathlib.Logic.Function.Basic
import Mathlib.Logic.Relation

/-! Transactions under strict two-phase locking, with shared and exclusive locks. An operation sees
the committed store with the operations of its own transaction on top, and its locks are held until
the transaction ends. Where operations without conflicting locks commute, the committed operations
replay one after the other, in the order of the commits. -/
namespace Locking

inductive Mode where
  | share
  | exclusive
  deriving DecidableEq, Repr

structure Lock (κ : Type) where
  key : κ
  mode : Mode
  deriving DecidableEq, Repr

variable {σ ω κ : Type}

/-- Locks on one key conflict unless both are shared. -/
def Lock.Conflicts (a b : Lock κ) : Prop := a.key = b.key ∧ (a.mode = .exclusive ∨ b.mode = .exclusive)

def Apart (ls ms : List (Lock κ)) : Prop := ∀ l ∈ ls, ∀ m ∈ ms, ¬ l.Conflicts m

theorem Apart.symm {ls ms : List (Lock κ)} (h : Apart ls ms) : Apart ms ls := by
  rintro m hm l hl ⟨hkey, hmode⟩
  exact h l hl m hm ⟨hkey.symm, hmode.symm⟩

theorem Apart.mono {ls ls' ms : List (Lock κ)} (h : Apart ls ms) (hsub : ls' ⊆ ls) : Apart ls' ms :=
  fun l hl => h l (hsub hl)

theorem apart_append {ls ls' ms : List (Lock κ)} :
    Apart (ls ++ ls') ms ↔ Apart ls ms ∧ Apart ls' ms := by
  simp [Apart, or_imp, forall_and]

/-- `perform` runs one operation, or refuses it. `locks` are the locks the operation takes. -/
structure System (σ ω κ : Type) where
  perform : σ → ω → Option σ
  locks : ω → List (Lock κ)

/-- `transaction i` holds the operations of the open transaction of connection `i`. `history` holds
the committed operations, in the order of the commits. -/
structure Server (σ ω : Type) where
  store : σ
  transaction : Nat → Option (List ω)
  history : List ω

def Server.initial (store : σ) : Server σ ω :=
  { store, transaction := fun _ => none, history := [] }

def Server.setTransaction (server : Server σ ω) (i : Nat) (operations : Option (List ω)) :
    Server σ ω :=
  { server with transaction := Function.update server.transaction i operations }

namespace System
variable (S : System σ ω κ)

def replay (store : σ) (operations : List ω) : Option σ := operations.foldlM S.perform store

def allLocks (operations : List ω) : List (Lock κ) := operations.flatMap S.locks

inductive Step : Server σ ω → Server σ ω → Prop
  | begin {server i} : server.transaction i = none →
      Step server (server.setTransaction i (some []))
  -- The operation runs once no other open transaction holds a conflicting lock.
  | operate {server i operations view next operation} :
      server.transaction i = some operations → S.replay server.store operations = some view →
      S.perform view operation = some next →
      (∀ j others, j ≠ i → server.transaction j = some others →
        Apart (S.locks operation) (S.allLocks others)) →
      Step server (server.setTransaction i (some (operations ++ [operation])))
  -- A rollback to a savepoint undoes the operations after it and releases their locks.
  | rollbackTo {server i operations kept} : server.transaction i = some operations →
      kept <+: operations → Step server (server.setTransaction i (some kept))
  | commit {server i operations view} : server.transaction i = some operations →
      S.replay server.store operations = some view →
      Step server { (server.setTransaction i none) with
        store := view, history := server.history ++ operations }
  | abort {server i operations} : server.transaction i = some operations →
      Step server (server.setTransaction i none)

/-- The servers that any number of transactions, in any interleaving, can lead to. -/
def Reachable (store : σ) (server : Server σ ω) : Prop :=
  Relation.ReflTransGen S.Step (Server.initial store) server

/-- Operations without conflicting locks do not see each other. -/
def Commutes : Prop :=
  ∀ {s sa sb : σ} {a b : ω}, S.perform s a = some sa → S.perform s b = some sb →
    Apart (S.locks a) (S.locks b) → ∃ t, S.perform sb a = some t ∧ S.perform sa b = some t

variable {S}

@[simp] theorem replay_nil (s : σ) : S.replay s [] = some s := rfl

@[simp] theorem replay_cons (s : σ) (a : ω) (rest : List ω) :
    S.replay s (a :: rest) = (S.perform s a).bind (S.replay · rest) := rfl

theorem replay_cons_eq_some {s t : σ} {a : ω} {rest : List ω} (h : S.replay s (a :: rest) = some t) :
    ∃ sa, S.perform s a = some sa ∧ S.replay sa rest = some t := by
  rw [replay_cons] at h
  exact Option.bind_eq_some_iff.mp h

theorem replay_append (s : σ) (first second : List ω) :
    S.replay s (first ++ second) = (S.replay s first).bind (S.replay · second) := by
  simp only [replay, List.foldlM_append]
  rfl

theorem replay_append_eq_some {s t : σ} {first second : List ω} :
    S.replay s (first ++ second) = some t ↔
      ∃ middle, S.replay s first = some middle ∧ S.replay middle second = some t := by
  rw [replay_append, Option.bind_eq_some_iff]

/-- A property that every operation keeps holds after every replay. -/
theorem replay_induction {P : σ → Prop}
    (hperform : ∀ {s t operation}, P s → S.perform s operation = some t → P t) {s t : σ}
    {operations : List ω} (h : S.replay s operations = some t) (hs : P s) : P t := by
  induction operations generalizing s with
  | nil =>
    cases h
    exact hs
  | cons a rest ih =>
    obtain ⟨sa, ha, hrest⟩ := replay_cons_eq_some h
    exact ih hrest (hperform hs ha)

/-- One operation passes a whole run that takes no conflicting lock. -/
theorem Commutes.replay_perform (hS : S.Commutes) {s sb t : σ} {b : ω} {operations : List ω}
    (hrun : S.replay s operations = some t) (hb : S.perform s b = some sb)
    (hlocks : Apart (S.allLocks operations) (S.locks b)) :
    ∃ u, S.replay sb operations = some u ∧ S.perform t b = some u := by
  induction operations generalizing s sb with
  | nil =>
    cases hrun
    exact ⟨sb, rfl, hb⟩
  | cons a rest ih =>
    obtain ⟨sa, ha, hrest⟩ := replay_cons_eq_some hrun
    obtain ⟨ha', hrest'⟩ := apart_append.mp hlocks
    obtain ⟨sab, hsb, hsa⟩ := hS ha hb ha'
    obtain ⟨u, hu, hperform⟩ := ih hrest hsa hrest'
    refine ⟨u, ?_, hperform⟩
    rw [replay_cons, hsb]
    exact hu

/-- Two runs without conflicting locks follow each other in either order. -/
theorem Commutes.replay_replay (hS : S.Commutes) {s t u : σ} {first second : List ω}
    (hfirst : S.replay s first = some t) (hsecond : S.replay s second = some u)
    (hlocks : Apart (S.allLocks first) (S.allLocks second)) :
    ∃ v, S.replay u first = some v := by
  induction second generalizing s t with
  | nil =>
    cases hsecond
    exact ⟨t, hfirst⟩
  | cons b rest ih =>
    obtain ⟨sb, hb, hrest⟩ := replay_cons_eq_some hsecond
    obtain ⟨hb', hrest'⟩ := apart_append.mp hlocks.symm
    obtain ⟨v, hv, _⟩ := hS.replay_perform hfirst hb hb'.symm
    exact ih hv hrest hrest'.symm

/-- The locks of open transactions do not conflict, every open transaction runs on the committed
store, and the history runs from the initial store to the committed one. -/
structure Serial (S : System σ ω κ) (initial : σ) (server : Server σ ω) : Prop where
  apart : ∀ i j ops others, i ≠ j → server.transaction i = some ops →
    server.transaction j = some others → Apart (S.allLocks ops) (S.allLocks others)
  runs : ∀ i ops, server.transaction i = some ops → ∃ view, S.replay server.store ops = some view
  history : S.replay initial server.history = some server.store

theorem serial_initial (initial : σ) : S.Serial initial (Server.initial initial) where
  apart := by
    intro _ _ _ _ _ h
    cases h
  runs := by
    intro _ _ h
    cases h
  history := rfl

theorem transaction_setTransaction {server : Server σ ω} {i j : Nat} {next : Option (List ω)}
    {ops : List ω} (h : (server.setTransaction i next).transaction j = some ops) :
    j = i ∧ next = some ops ∨ j ≠ i ∧ server.transaction j = some ops := by
  by_cases hj : j = i
  · subst hj
    exact Or.inl ⟨rfl, by simpa [Server.setTransaction] using h⟩
  · exact Or.inr ⟨hj, by simpa [Server.setTransaction, hj] using h⟩

/-- A transaction may change to operations that run and whose locks are free. -/
theorem Serial.setOpen {initial : σ} {server : Server σ ω} (h : S.Serial initial server) {i : Nat}
    {next : List ω} (hruns : ∃ view, S.replay server.store next = some view)
    (hfree : ∀ j others, j ≠ i → server.transaction j = some others →
      Apart (S.allLocks next) (S.allLocks others)) :
    S.Serial initial (server.setTransaction i (some next)) where
  apart := by
    intro j k ops others hjk hj hk
    rcases transaction_setTransaction hj with ⟨hj', hnext⟩ | ⟨hj', hops⟩ <;>
      rcases transaction_setTransaction hk with ⟨hk', hnext'⟩ | ⟨hk', hothers⟩
    · exact absurd (hj'.trans hk'.symm) hjk
    · cases hnext
      exact hfree k others hk' hothers
    · cases hnext'
      exact (hfree j ops hj' hops).symm
    · exact h.apart j k ops others hjk hops hothers
  runs := by
    intro j ops hj
    rcases transaction_setTransaction hj with ⟨_, hnext⟩ | ⟨_, hops⟩
    · cases hnext
      exact hruns
    · exact h.runs j ops hops
  history := h.history

theorem Serial.setClosed {initial : σ} {server : Server σ ω} (h : S.Serial initial server) (i : Nat) :
    S.Serial initial (server.setTransaction i none) where
  apart := by
    intro j k ops others hjk hj hk
    rcases transaction_setTransaction hj with ⟨_, hnone⟩ | ⟨_, hops⟩
    · cases hnone
    rcases transaction_setTransaction hk with ⟨_, hnone⟩ | ⟨_, hothers⟩
    · cases hnone
    exact h.apart j k ops others hjk hops hothers
  runs := by
    intro j ops hj
    rcases transaction_setTransaction hj with ⟨_, hnone⟩ | ⟨_, hops⟩
    · cases hnone
    · exact h.runs j ops hops
  history := h.history

theorem Serial.step (hS : S.Commutes) {initial : σ} {server next : Server σ ω}
    (h : S.Serial initial server) (hstep : S.Step server next) : S.Serial initial next := by
  cases hstep with
  | begin _ =>
    refine h.setOpen ⟨server.store, rfl⟩ ?_
    intro _ _ _ _ l hl
    cases hl
  | @operate i operations view after operation hi hview hperform hfree =>
    refine h.setOpen ⟨after, replay_append_eq_some.mpr ⟨view, hview, ?_⟩⟩ ?_
    · rw [replay_cons, hperform]
      rfl
    · intro j others hj hothers
      rw [allLocks, List.flatMap_append, apart_append]
      exact ⟨h.apart i j operations others (Ne.symm hj) hi hothers,
        by simpa using hfree j others hj hothers⟩
  | @rollbackTo i operations kept hi hkept =>
    obtain ⟨undone, rfl⟩ := hkept
    obtain ⟨view, hview⟩ := h.runs i _ hi
    obtain ⟨middle, hmiddle, _⟩ := replay_append_eq_some.mp hview
    refine h.setOpen ⟨middle, hmiddle⟩ ?_
    intro j others hj hothers
    apply (h.apart i j _ others (Ne.symm hj) hi hothers).mono
    rw [allLocks, allLocks, List.flatMap_append]
    exact List.subset_append_left _ _
  | @commit i operations view hi hview =>
    have hclosed := h.setClosed i
    refine ⟨hclosed.apart, ?_, replay_append_eq_some.mpr ⟨_, h.history, hview⟩⟩
    -- The others held no conflicting lock, so they still run after this one's operations.
    intro j ops hj
    rcases transaction_setTransaction hj with ⟨_, hnone⟩ | ⟨hj', hops⟩
    · cases hnone
    · obtain ⟨other, hother⟩ := h.runs j ops hops
      exact hS.replay_replay hother hview (h.apart j i ops operations hj' hops hi)
  | abort _ => exact h.setClosed _

theorem Reachable.serial (hS : S.Commutes) {initial : σ} {server : Server σ ω}
    (hrun : S.Reachable initial server) : S.Serial initial server := by
  induction hrun with
  | refl => exact serial_initial initial
  | tail _ hstep ih => exact ih.step hS hstep

theorem setTransaction_setTransaction (server : Server σ ω) (i : Nat)
    (first second : Option (List ω)) :
    (server.setTransaction i first).setTransaction i second = server.setTransaction i second := by
  simp [Server.setTransaction, Function.update_idem]

/-- A transaction that runs alone never waits. -/
theorem Reachable.open_alone {initial : σ} {server : Server σ ω} (hrun : S.Reachable initial server)
    (halone : ∀ j, server.transaction j = none) (i : Nat) {operations : List ω} {view : σ}
    (hview : S.replay server.store operations = some view) :
    S.Reachable initial (server.setTransaction i (some operations)) := by
  induction operations using List.reverseRecOn generalizing view with
  | nil => exact hrun.tail (.begin (halone i))
  | append_singleton operations operation ih =>
    obtain ⟨middle, hmiddle, hlast⟩ := replay_append_eq_some.mp hview
    obtain ⟨next, hperform, _⟩ := replay_cons_eq_some hlast
    rw [← setTransaction_setTransaction server i (some operations)]
    refine (ih hmiddle).tail (.operate (by simp [Server.setTransaction]) hmiddle hperform ?_)
    intro j others hj hothers
    simp [Server.setTransaction, hj, halone j] at hothers

theorem Reachable.commit_alone {initial : σ} {server : Server σ ω} (hrun : S.Reachable initial server)
    (halone : ∀ j, server.transaction j = none) {operations : List ω} {view : σ}
    (hview : S.replay server.store operations = some view) :
    S.Reachable initial
      { store := view, transaction := fun _ => none, history := server.history ++ operations } := by
  have hself : (server.setTransaction 0 (some operations)).transaction 0 = some operations := by
    simp [Server.setTransaction]
  have hcommit := (hrun.open_alone halone 0 hview).tail (.commit hself hview)
  rw [setTransaction_setTransaction] at hcommit
  have hnone : Function.update server.transaction 0 none = fun _ => none := by
    funext j
    by_cases hj : j = 0
    · rw [hj, Function.update_self]
    · rw [Function.update_of_ne hj, halone j]
  simp only [Server.setTransaction, hnone] at hcommit
  exact hcommit

end System

/-! Rows of a table with unique indexes. A row has its entries in the indexes, and two rows never
share an entry. -/

/-- An insert has no old row, a delete no new one. -/
structure Change (ρ : Type) where
  old : Option ρ
  new : Option ρ
  deriving DecidableEq, Repr

variable {ρ : Type}

def Change.rows (change : Change ρ) : List ρ := change.old.toList ++ change.new.toList

def Change.entries (entries : ρ → List κ) (change : Change ρ) : List κ := change.rows.flatMap entries

theorem Change.mem_entries {entries : ρ → List κ} {change : Change ρ} {entry : κ} :
    entry ∈ change.entries entries ↔
      ∃ row, (change.old = some row ∨ change.new = some row) ∧ entry ∈ entries row := by
  simp only [Change.entries, Change.rows, List.flatMap_append, List.mem_append, List.mem_flatMap,
    Option.mem_toList, or_and_right, exists_or]

/-- Rows of changes without a common entry differ. -/
theorem Change.rows_ne {entries : ρ → List κ} (hentries : ∀ row, entries row ≠ []) {a b : Change ρ}
    (hapart : ∀ entry ∈ a.entries entries, entry ∉ b.entries entries) {row other : ρ}
    (hrow : a.old = some row ∨ a.new = some row) (hother : b.old = some other ∨ b.new = some other) :
    row ≠ other := by
  rintro rfl
  obtain ⟨entry, hentry⟩ := List.exists_mem_of_ne_nil _ (hentries row)
  exact hapart entry (Change.mem_entries.mpr ⟨row, hrow, hentry⟩)
    (Change.mem_entries.mpr ⟨row, hother, hentry⟩)

section Tables
variable [DecidableEq ρ] (entries : ρ → List κ)

def Change.write (table : Finset ρ) (change : Change ρ) : Finset ρ :=
  let left := change.old.elim table table.erase
  change.new.elim left (insert · left)

/-- The old row is there, and no other row has an entry of the new one. -/
def Change.Fits (table : Finset ρ) (change : Change ρ) : Prop :=
  (∀ row ∈ change.old, row ∈ table) ∧
    ∀ row ∈ change.new, ∀ other ∈ table, change.old ≠ some other → ∀ entry ∈ entries other,
      entry ∉ entries row

instance [DecidableEq κ] (table : Finset ρ) (change : Change ρ) :
    Decidable (change.Fits entries table) :=
  inferInstanceAs (Decidable ((∀ row ∈ change.old, row ∈ table) ∧
    ∀ row ∈ change.new, ∀ other ∈ table, change.old ≠ some other → ∀ entry ∈ entries other,
      entry ∉ entries row))

theorem Change.mem_write {table : Finset ρ} {change : Change ρ} {row : ρ} :
    row ∈ change.write table ↔
      change.new = some row ∨ row ∈ table ∧ change.old ≠ some row := by
  obtain ⟨old, new⟩ := change
  cases old <;> cases new <;> simp [Change.write, eq_comm, and_comm]

variable {entries}

theorem Change.Fits.write (hentries : ∀ row, entries row ≠ []) {table : Finset ρ} {a b : Change ρ}
    (ha : a.Fits entries table)
    (hapart : ∀ entry ∈ a.entries entries, entry ∉ b.entries entries) :
    a.Fits entries (b.write table) := by
  constructor
  · intro row hrow
    rw [Change.mem_write]
    refine Or.inr ⟨ha.1 row hrow, fun hb => ?_⟩
    exact Change.rows_ne hentries hapart (Or.inl hrow) (Or.inl hb) rfl
  · intro row hrow other hother hne entry hentry hmem
    rcases Change.mem_write.mp hother with hb | ⟨hother, _⟩
    · exact hapart entry (Change.mem_entries.mpr ⟨row, Or.inr hrow, hmem⟩)
        (Change.mem_entries.mpr ⟨other, Or.inr hb, hentry⟩)
    · exact ha.2 row hrow other hother hne entry hentry hmem

theorem Change.write_comm (hentries : ∀ row, entries row ≠ []) (table : Finset ρ) {a b : Change ρ}
    (hapart : ∀ entry ∈ a.entries entries, entry ∉ b.entries entries) :
    a.write (b.write table) = b.write (a.write table) := by
  ext row
  simp only [Change.mem_write]
  have hnew : a.new = some row → b.old ≠ some row := fun ha hb =>
    Change.rows_ne hentries hapart (Or.inr ha) (Or.inl hb) rfl
  have hold : b.new = some row → a.old ≠ some row := fun hb ha =>
    Change.rows_ne hentries hapart (Or.inl ha) (Or.inr hb) rfl
  tauto

/-- No two rows share an entry. -/
def Unique (entries : ρ → List κ) (table : Finset ρ) : Prop :=
  ∀ row ∈ table, ∀ other ∈ table, ∀ entry ∈ entries row, entry ∈ entries other → row = other

theorem Change.Fits.unique {table : Finset ρ} {change : Change ρ} (h : change.Fits entries table)
    (hunique : Unique entries table) : Unique entries (change.write table) := by
  intro row hrow other hother entry hentry hentry'
  rcases Change.mem_write.mp hrow with hnew | ⟨hrow, hold⟩ <;>
    rcases Change.mem_write.mp hother with hnew' | ⟨hother, hold'⟩
  · exact Option.some.inj (hnew.symm.trans hnew')
  · exact absurd hentry (h.2 row hnew other hother hold' entry hentry')
  · exact absurd hentry' (h.2 other hnew' row hrow hold entry hentry)
  · exact hunique row hrow other hother entry hentry hentry'

end Tables

structure Table (entries : ρ → List κ) where
  rows : Finset ρ
  unique : Unique entries rows

namespace Table
variable [DecidableEq ρ] [DecidableEq κ] {entries : ρ → List κ}

def empty (entries : ρ → List κ) : Table entries where
  rows := ∅
  unique := by simp [Unique]

def write (table : Table entries) (change : Change ρ) : Option (Table entries) :=
  if h : change.Fits entries table.rows then
    some { rows := change.write table.rows, unique := h.unique table.unique }
  else none

theorem write_eq_some {table next : Table entries} {change : Change ρ} :
    table.write change = some next ↔
      change.Fits entries table.rows ∧ next.rows = change.write table.rows := by
  obtain ⟨rows, unique⟩ := next
  unfold write
  split_ifs with h
  · simp [h, eq_comm]
  · simp [h]

/-- Changes without a common entry follow each other in either order. -/
theorem write_write (hentries : ∀ row, entries row ≠ []) {table ta tb : Table entries}
    {a b : Change ρ} (ha : table.write a = some ta) (hb : table.write b = some tb)
    (hapart : ∀ entry ∈ a.entries entries, entry ∉ b.entries entries) :
    ∃ next, tb.write a = some next ∧ ta.write b = some next := by
  obtain ⟨hfits, hrows⟩ := write_eq_some.mp ha
  obtain ⟨hfits', hrows'⟩ := write_eq_some.mp hb
  have hswap : ∀ entry ∈ b.entries entries, entry ∉ a.entries entries :=
    fun entry hmem hmem' => hapart entry hmem' hmem
  have hab : a.Fits entries tb.rows := by
    rw [hrows']
    exact hfits.write hentries hapart
  have hba : b.Fits entries ta.rows := by
    rw [hrows]
    exact hfits'.write hentries hswap
  refine ⟨⟨a.write tb.rows, hab.unique tb.unique⟩, write_eq_some.mpr ⟨hab, rfl⟩,
    write_eq_some.mpr ⟨hba, ?_⟩⟩
  show a.write tb.rows = b.write ta.rows
  rw [hrows, hrows']
  exact Change.write_comm hentries table.rows hapart

end Table

end Locking

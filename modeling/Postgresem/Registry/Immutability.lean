import Postgresem.Registry.Revision

/-! A revision that has been published keeps its child rows, whatever transactions interleave. The
row operations commute unless their locks conflict, so that every committed state is the replay of
its operations one by one, and each operation keeps the rows of a revision that is no draft. -/
namespace Postgresem
namespace Registry
open Locking

variable {κ π : Type}

theorem mem_statuses {revisions : Finset Revision} {revisionId : Uuid} {status : RevisionStatus} :
    status ∈ statuses revisions revisionId ↔
      ∃ row ∈ revisions, row.revisionId = revisionId ∧ row.status = status := by
  simp [statuses, and_assoc]

theorem requireDraftRevision_eq_ok {revisions : Finset Revision} {operation : ChildOperation κ π} :
    requireDraftRevision revisions operation = .ok () ↔
      operation.movesRevision = false ∧ .draft ∈ statuses revisions operation.targetRevisionId := by
  unfold requireDraftRevision
  by_cases hmoves : operation.movesRevision = true
  · simp [hmoves]
  · by_cases hdraft : .draft ∈ statuses revisions operation.targetRevisionId
    · simp [hmoves, hdraft]
    · simp [hmoves, hdraft]

theorem enforceRevisionTransition_eq_ok {old new : Revision}
    (h : enforceRevisionTransition old new = .ok ()) :
    old.status = .draft ∧ (new.status = .draft ∨ new.status = .published) ∨
      old.status = .published ∧ new.status = .retired ∧ new.revisionId = old.revisionId := by
  unfold enforceRevisionTransition at h
  by_cases hdraft : old.status = .draft ∧ (new.status = .draft ∨ new.status = .published)
  · exact Or.inl hdraft
  · rw [if_neg hdraft] at h
    split_ifs at h with hretire
    exact Or.inr ⟨hretire.1, hretire.2.1, hretire.2.2.1⟩

theorem entries_ne_nil (row : Revision) : Revision.entries κ row ≠ [] := by
  simp [Revision.entries]

theorem ChildRow.entries_ne_nil (row : ChildRow κ π) : row.entries ≠ [] := by
  simp [ChildRow.entries]

theorem revision_mem_entries (row : Revision) :
    LockKey.revision row.revisionId ∈ Revision.entries κ row := by
  simp [Revision.entries]

/-- Two rows of one database with one id are one row. -/
theorem Database.eq_of_revisionId (db : Database κ π) {a b : Revision} (ha : a ∈ db.revisions.rows)
    (hb : b ∈ db.revisions.rows) (h : a.revisionId = b.revisionId) : a = b := by
  apply db.revisions.unique a ha b hb _ (revision_mem_entries a)
  rw [h]
  exact revision_mem_entries b

theorem Database.onePublished (db : Database κ π) : db.OnePublished := by
  intro a ha b hb hpublished hpublished' hproject
  apply db.revisions.unique a ha b hb (.onePublishedRevisionPerProject a.projectId)
  · simp [Revision.entries, hpublished]
  · simp [Revision.entries, hpublished', hproject]

theorem Database.statuses_unique (db : Database κ π) {revisionId : Uuid} {a b : RevisionStatus}
    (ha : a ∈ db.statuses revisionId) (hb : b ∈ db.statuses revisionId) : a = b := by
  obtain ⟨row, hrow, hid, rfl⟩ := mem_statuses.mp ha
  obtain ⟨other, hother, hid', rfl⟩ := mem_statuses.mp hb
  rw [db.eq_of_revisionId hrow hother (hid.trans hid'.symm)]

theorem apart_exclusive {ks ls : List (LockKey κ)} (h : Apart (exclusive ks) (exclusive ls)) :
    ∀ k ∈ ks, k ∉ ls := by
  intro k hk hl
  exact h ⟨k, .exclusive⟩ (List.mem_map_of_mem hk) ⟨k, .exclusive⟩ (List.mem_map_of_mem hl)
    ⟨rfl, Or.inl rfl⟩

/-- A change locked apart from a revision leaves its status. -/
theorem statuses_write {rows : Finset Revision} {change : Change Revision} {revisionId : Uuid}
    (h : LockKey.revision revisionId ∉ change.entries (Revision.entries κ)) :
    statuses (change.write rows) revisionId = statuses rows revisionId := by
  have houtside : ∀ row, change.old = some row ∨ change.new = some row →
      row.revisionId ≠ revisionId := by
    rintro row hrow rfl
    exact h (Change.mem_entries.mpr ⟨row, hrow, revision_mem_entries row⟩)
  ext status
  simp only [mem_statuses, Change.mem_write]
  constructor
  · rintro ⟨row, hnew | ⟨hrow, _⟩, hid, hstatus⟩
    · exact absurd hid (houtside row (Or.inr hnew))
    · exact ⟨row, hrow, hid, hstatus⟩
  · rintro ⟨row, hrow, hid, hstatus⟩
    exact ⟨row, Or.inr ⟨hrow, fun hold => houtside row (Or.inl hold) hid⟩, hid, hstatus⟩

/-- A child operation does not see the change of another revision. -/
theorem requireDraftRevision_write {rows : Finset Revision} {change : Change Revision}
    {operation : ChildOperation κ π}
    (h : LockKey.revision operation.targetRevisionId ∉ change.entries (Revision.entries κ)) :
    requireDraftRevision (change.write rows) operation = requireDraftRevision rows operation := by
  simp only [requireDraftRevision, statuses_write h]

/-- An update that is let through keeps all rows of its change in one revision. -/
theorem revisionId_of_change {operation : ChildOperation κ π} (h : operation.movesRevision = false)
    {row : ChildRow κ π} (hrow : operation.change.old = some row ∨ operation.change.new = some row) :
    row.revisionId = operation.targetRevisionId := by
  cases operation with
  | insert new => simp_all [ChildOperation.change, ChildOperation.targetRevisionId]
  | update old new =>
    have hsame : new.revisionId = old.revisionId := by simpa [ChildOperation.movesRevision] using h
    rcases hrow with hrow | hrow
    · cases hrow
      exact hsame.symm
    · cases hrow
      rfl
  | delete old => simp_all [ChildOperation.change, ChildOperation.targetRevisionId]

theorem Database.HasBeenPublished.not_draft {db : Database κ π} {revisionId : Uuid}
    (h : db.HasBeenPublished revisionId) : .draft ∉ db.statuses revisionId := by
  intro hdraft
  rcases h with h | h
  · cases db.statuses_unique h hdraft
  · cases db.statuses_unique h hdraft

/-- A revision whose row stays keeps its status. -/
theorem advances_of_mem {next : Database κ π} {row : Revision} (hrow : row ∈ next.revisions.rows) :
    (∀ after ∈ next.statuses row.revisionId, row.status = after ∨ row.status.Moves after) ∧
      (row.status ≠ .draft → (next.statuses row.revisionId).Nonempty) := by
  have hmem : row.status ∈ next.statuses row.revisionId := mem_statuses.mpr ⟨row, hrow, rfl, rfl⟩
  exact ⟨fun after hafter => Or.inl (next.statuses_unique hmem hafter), fun _ => ⟨_, hmem⟩⟩

theorem Database.Advances.hasBeenPublished {db next : Database κ π} (h : db.Advances next)
    {revisionId : Uuid} (hpublished : db.HasBeenPublished revisionId) :
    next.HasBeenPublished revisionId := by
  have hmove : ∀ before ∈ db.statuses revisionId, before ≠ .draft →
      next.HasBeenPublished revisionId := by
    intro before hbefore hnotDraft
    obtain ⟨hafter, hnonempty⟩ := h revisionId before hbefore
    obtain ⟨after, hmem⟩ := hnonempty hnotDraft
    rcases hafter after hmem with rfl | hmoves
    · cases before with
      | draft => exact absurd rfl hnotDraft
      | published => exact Or.inl hmem
      | retired => exact Or.inr hmem
    · cases hmoves with
      | publish => exact Or.inl hmem
      | retire => exact Or.inr hmem
  rcases hpublished with hpublished | hretired
  · exact hmove _ hpublished nofun
  · exact hmove _ hretired nofun

variable [DecidableEq κ] [DecidableEq π]

theorem writeTable_eq_ok {ρ : Type} [DecidableEq ρ] {entries : ρ → List (LockKey κ)}
    {table next : Table entries} {change : Change ρ} :
    writeTable table change = .ok next ↔ table.write change = some next := by
  unfold writeTable
  cases table.write change with
  | none => simp
  | some written => simp

/-- A write behind a guard succeeds where both do. -/
theorem guarded_write_eq_ok {ρ α : Type} [DecidableEq ρ] {entries : ρ → List (LockKey κ)}
    {guard : Except Raised Unit} {table : Table entries} {change : Change ρ} {f : Table entries → α}
    {next : α} :
    (do guard; let written ← writeTable table change; Except.ok (f written)) = .ok next ↔
      guard = .ok () ∧ ∃ written, table.write change = some written ∧ next = f written := by
  cases guard with
  | error e => simp [bind, Except.bind]
  | ok =>
    cases hwrite : writeTable table change with
    | error e =>
      have hnone : ∀ written, table.write change ≠ some written := by
        intro written hsome
        rw [writeTable_eq_ok.mpr hsome] at hwrite
        cases hwrite
      simp [bind, Except.bind, hnone]
    | ok written => simp [bind, Except.bind, writeTable_eq_ok.mp hwrite, eq_comm]

theorem execute_revision {db next : Database κ π} {operation : RevisionOperation} :
    db.execute (.revision operation) = .ok next ↔
      operation.guards = .ok () ∧ ∃ revisions,
        db.revisions.write operation.change = some revisions ∧ next = { db with revisions } :=
  guarded_write_eq_ok

theorem execute_child {db next : Database κ π} {operation : ChildOperation κ π} :
    db.execute (.child operation) = .ok next ↔
      requireDraftRevision db.revisions.rows operation = .ok () ∧ ∃ children,
        db.children.write operation.change = some children ∧ next = { db with children } :=
  guarded_write_eq_ok

theorem perform_eq_some {db next : Database κ π} {operation : Operation κ π} :
    (system κ π).perform db operation = some next ↔ db.execute operation = .ok next := by
  show (db.execute operation).toOption = some next ↔ _
  cases db.execute operation with
  | error e => simp [Except.toOption]
  | ok db' => simp [Except.toOption]

/-- A revision operation and a child operation that locks another revision commute. -/
theorem revision_child_commute {db da dc : Database κ π} {a : RevisionOperation}
    {c : ChildOperation κ π} (ha : db.execute (.revision a) = .ok da)
    (hc : db.execute (.child c) = .ok dc)
    (happart : LockKey.revision c.targetRevisionId ∉ a.change.entries (Revision.entries κ)) :
    ∃ next, dc.execute (.revision a) = .ok next ∧ da.execute (.child c) = .ok next := by
  obtain ⟨hguards, revisions, hrevisions, rfl⟩ := execute_revision.mp ha
  obtain ⟨hdraft, children, hchildren, rfl⟩ := execute_child.mp hc
  refine ⟨{ revisions, children }, execute_revision.mpr ⟨hguards, revisions, hrevisions, rfl⟩,
    execute_child.mpr ⟨?_, children, hchildren, rfl⟩⟩
  show requireDraftRevision revisions.rows c = .ok ()
  rw [(Table.write_eq_some.mp hrevisions).2, requireDraftRevision_write happart]
  exact hdraft

theorem system_commutes : (system κ π).Commutes := by
  intro db da db' a b ha hb hapart
  simp only [perform_eq_some] at ha hb ⊢
  cases a with
  | revision a =>
    cases b with
    | revision b =>
      -- Two revision operations share no entry of an index.
      obtain ⟨hguards, ra, hra, rfl⟩ := execute_revision.mp ha
      obtain ⟨hguards', rb, hrb, rfl⟩ := execute_revision.mp hb
      obtain ⟨rows, hab, hba⟩ := Table.write_write entries_ne_nil hra hrb (apart_exclusive hapart)
      exact ⟨{ db with revisions := rows }, execute_revision.mpr ⟨hguards, rows, hab, rfl⟩,
        execute_revision.mpr ⟨hguards', rows, hba, rfl⟩⟩
    | child c =>
      refine revision_child_commute ha hb ?_
      intro hmem
      exact hapart ⟨_, .exclusive⟩ (List.mem_map_of_mem hmem) ⟨_, .share⟩ List.mem_cons_self
        ⟨rfl, Or.inl rfl⟩
  | child c =>
    cases b with
    | revision b =>
      have hmem : LockKey.revision c.targetRevisionId ∉ b.change.entries (Revision.entries κ) := by
        intro hmem
        exact hapart ⟨_, .share⟩ List.mem_cons_self ⟨_, .exclusive⟩ (List.mem_map_of_mem hmem)
          ⟨rfl, Or.inr rfl⟩
      obtain ⟨next, hnext, hnext'⟩ := revision_child_commute hb ha hmem
      exact ⟨next, hnext', hnext⟩
    | child d =>
      -- Their shared locks on a revision do not conflict. Their child rows differ.
      obtain ⟨hdraft, ca, hca, rfl⟩ := execute_child.mp ha
      obtain ⟨hdraft', cb, hcb, rfl⟩ := execute_child.mp hb
      have hrows : Apart (exclusive (c.change.entries ChildRow.entries))
          (exclusive (d.change.entries ChildRow.entries)) := fun l hl m hm =>
        hapart l (List.mem_cons_of_mem _ hl) m (List.mem_cons_of_mem _ hm)
      obtain ⟨rows, hab, hba⟩ :=
        Table.write_write ChildRow.entries_ne_nil hca hcb (apart_exclusive hrows)
      exact ⟨{ db with children := rows }, execute_child.mpr ⟨hdraft, rows, hab, rfl⟩,
        execute_child.mpr ⟨hdraft', rows, hba, rfl⟩⟩

/-- A child operation leaves the rows of a revision that is no draft. -/
theorem execute_childRows {db next : Database κ π} {operation : Operation κ π}
    (h : db.execute operation = .ok next) {revisionId : Uuid}
    (hpublished : db.HasBeenPublished revisionId) :
    next.childRows revisionId = db.childRows revisionId := by
  cases operation with
  | revision operation =>
    obtain ⟨_, revisions, _, rfl⟩ := execute_revision.mp h
    rfl
  | child operation =>
    obtain ⟨hguard, children, hwrite, rfl⟩ := execute_child.mp h
    obtain ⟨hmoves, hdraft⟩ := requireDraftRevision_eq_ok.mp hguard
    have hother : ∀ row, operation.change.old = some row ∨ operation.change.new = some row →
        row.revisionId ≠ revisionId := by
      rintro row hrow rfl
      rw [revisionId_of_change hmoves hrow] at hpublished
      exact hpublished.not_draft hdraft
    ext row
    simp only [Database.childRows, Finset.mem_filter, (Table.write_eq_some.mp hwrite).2,
      Change.mem_write]
    constructor
    · rintro ⟨hnew | ⟨hrow, _⟩, hid⟩
      · exact absurd hid (hother row (Or.inr hnew))
      · exact ⟨hrow, hid⟩
    · rintro ⟨hrow, hid⟩
      exact ⟨Or.inr ⟨hrow, fun hold => hother row (Or.inl hold) hid⟩, hid⟩

theorem execute_advances {db next : Database κ π} {operation : Operation κ π}
    (h : db.execute operation = .ok next) : db.Advances next := by
  intro revisionId before hbefore
  obtain ⟨row, hrow, rfl, rfl⟩ := mem_statuses.mp hbefore
  cases operation with
  | child operation =>
    obtain ⟨_, children, _, rfl⟩ := execute_child.mp h
    exact advances_of_mem hrow
  | revision operation =>
    obtain ⟨hguards, revisions, hwrite, rfl⟩ := execute_revision.mp h
    have hrows := (Table.write_eq_some.mp hwrite).2
    by_cases hold : operation.change.old = some row
    · cases operation with
      | insert new => cases hold
      | update old new =>
        cases hold
        -- The new row is the only one that may have this id now.
        have hnew : ∀ other ∈ revisions.rows, other.revisionId = row.revisionId → other = new := by
          intro other hother hid
          rw [hrows, Change.mem_write] at hother
          rcases hother with hother | ⟨hother, hne⟩
          · cases hother
            rfl
          · exact absurd (congrArg some (db.eq_of_revisionId hrow hother hid.symm)) hne
        have hmem : new ∈ revisions.rows := by
          rw [hrows, Change.mem_write]
          exact Or.inl rfl
        have htransition : enforceRevisionTransition row new = .ok () := by
          simp only [RevisionOperation.guards] at hguards
          cases htransition : enforceRevisionTransition row new with
          | error e => simp [htransition, bind, Except.bind] at hguards
          | ok => rfl
        have hcases := enforceRevisionTransition_eq_ok htransition
        constructor
        · intro after hafter
          obtain ⟨other, hother, hid, rfl⟩ := mem_statuses.mp hafter
          rw [hnew other hother hid]
          rcases hcases with ⟨hdraft, hdraft' | hpublish⟩ | ⟨hpublished, hretired, _⟩
          · exact Or.inl (hdraft.trans hdraft'.symm)
          · rw [hdraft, hpublish]
            exact Or.inr .publish
          · rw [hpublished, hretired]
            exact Or.inr .retire
        · intro hnotDraft
          rcases hcases with ⟨hdraft, _⟩ | ⟨_, _, hid⟩
          · exact absurd hdraft hnotDraft
          · exact ⟨_, mem_statuses.mpr ⟨new, hmem, hid, rfl⟩⟩
    · apply advances_of_mem
      show row ∈ revisions.rows
      rw [hrows, Change.mem_write]
      exact Or.inr ⟨hrow, hold⟩

/-- Whatever runs after a publication, the revision stays published or retired with the child rows
it had. -/
theorem replay_childRows {db later : Database κ π} {operations : List (Operation κ π)}
    (hrun : (system κ π).replay db operations = some later) {revisionId : Uuid}
    (hpublished : db.HasBeenPublished revisionId) :
    later.HasBeenPublished revisionId ∧ later.childRows revisionId = db.childRows revisionId := by
  refine System.replay_induction (S := system κ π)
    (P := fun s => s.HasBeenPublished revisionId ∧ s.childRows revisionId = db.childRows revisionId)
    ?_ hrun ⟨hpublished, rfl⟩
  rintro s t operation ⟨hs, hrows⟩ hperform
  have hexecute := perform_eq_some.mp hperform
  exact ⟨(execute_advances hexecute).hasBeenPublished hs,
    (execute_childRows hexecute hs).trans hrows⟩

/-- Over a run a status only moves forward. -/
theorem replay_statuses {db later : Database κ π} {operations : List (Operation κ π)}
    (hrun : (system κ π).replay db operations = some later) {revisionId : Uuid}
    {before after : RevisionStatus} (hbefore : before ∈ db.statuses revisionId)
    (hafter : after ∈ later.statuses revisionId) :
    Relation.ReflTransGen RevisionStatus.Moves before after := by
  by_cases hdraft : before = .draft
  · -- A draft may give its id to another row, and every status lies ahead of a draft.
    subst hdraft
    cases after with
    | draft => exact .refl
    | published => exact .single .publish
    | retired => exact .tail (.single .publish) .retire
  · have hall : (later.statuses revisionId).Nonempty ∧ ∀ status ∈ later.statuses revisionId,
        status ≠ .draft ∧ Relation.ReflTransGen RevisionStatus.Moves before status := by
      refine System.replay_induction (S := system κ π)
        (P := fun s => (s.statuses revisionId).Nonempty ∧ ∀ status ∈ s.statuses revisionId,
          status ≠ .draft ∧ Relation.ReflTransGen RevisionStatus.Moves before status)
        ?_ hrun ⟨⟨before, hbefore⟩, fun status hstatus => ?_⟩
      · rintro s t operation ⟨⟨status, hstatus⟩, hs⟩ hperform
        obtain ⟨hnotDraft, hmoves⟩ := hs status hstatus
        obtain ⟨hsteps, hnonempty⟩ :=
          execute_advances (perform_eq_some.mp hperform) revisionId status hstatus
        refine ⟨hnonempty hnotDraft, fun next hnext => ?_⟩
        rcases hsteps next hnext with rfl | hmove
        · exact ⟨hnotDraft, hmoves⟩
        · refine ⟨?_, hmoves.tail hmove⟩
          rintro rfl
          cases hmove
      · rw [← db.statuses_unique hbefore hstatus]
        exact ⟨hdraft, .refl⟩
    exact (hall.2 after hafter).2

/-- In every committed state, and at every point of its history: each project has at most one
published revision, a revision published by then has now the child rows it had there, and its status
has only moved forward, one step at a time. -/
theorem published_revisions_immutable {initial : Database κ π}
    {server : Server (Database κ π) (Operation κ π)}
    (hrun : (system κ π).Reachable initial server) :
    server.store.OnePublished ∧
      ∀ earlier later, server.history = earlier ++ later →
        ∃ point, (system κ π).replay initial earlier = some point ∧ point.OnePublished ∧
          (∀ revisionId, point.HasBeenPublished revisionId →
            server.store.HasBeenPublished revisionId ∧
              server.store.childRows revisionId = point.childRows revisionId) ∧
          (∀ revisionId, ∀ before ∈ point.statuses revisionId,
            ∀ after ∈ server.store.statuses revisionId,
              Relation.ReflTransGen RevisionStatus.Moves before after) ∧
          ∀ operation rest, later = operation :: rest →
            ∃ next, point.execute operation = .ok next ∧ point.Advances next := by
  refine ⟨server.store.onePublished, fun earlier later hsplit => ?_⟩
  have hhistory := (hrun.serial system_commutes).history
  rw [hsplit] at hhistory
  obtain ⟨point, hearlier, hlater⟩ := System.replay_append_eq_some.mp hhistory
  refine ⟨point, hearlier, point.onePublished, fun _ => replay_childRows hlater,
    fun _ _ hbefore _ hafter => replay_statuses hlater hbefore hafter, ?_⟩
  rintro operation rest rfl
  obtain ⟨next, hperform, _⟩ := System.replay_cons_eq_some hlater
  have hexecute := perform_eq_some.mp hperform
  exact ⟨next, hexecute, execute_advances hexecute⟩

section Fixture

def draftRevision : Revision where
  revisionId := "revision-1"
  projectId := "project-1"
  revisionNumber := 1
  parentRevisionId := none
  status := .draft
  schemaVersion := "2"
  canonicalHash := "sha256:" ++ String.ofList (List.replicate 64 'a')
  compilerSemanticVersion := "1"
  createdAt := 0
  publishedAt := none
  retiredAt := none

def publishedRevision : Revision :=
  { draftRevision with status := .published, publishedAt := some 1 }

def retiredRevision : Revision :=
  { publishedRevision with status := .retired, retiredAt := some 2 }

def ordersModel : ChildRow Nat Unit :=
  { table := .model, key := 1, revisionId := "revision-1", columns := () }

def emptyDatabase : Database Nat Unit := { revisions := .empty _, children := .empty _ }

/-- A revision with one model is published. -/
def publication : List (Operation Nat Unit) :=
  [.revision (.insert draftRevision), .child (.insert ordersModel),
    .revision (.update draftRevision publishedRevision)]

def retirement : List (Operation Nat Unit) :=
  [.revision (.update publishedRevision retiredRevision)]

end Fixture

theorem published_revision_retired :
    ∃ server, (system Nat Unit).Reachable emptyDatabase server ∧
      server.history = publication ++ retirement ∧ server.store.OnePublished ∧
      ∃ point, (system Nat Unit).replay emptyDatabase publication = some point ∧
        ∀ revisionId, point.HasBeenPublished revisionId →
          server.store.childRows revisionId = point.childRows revisionId := by
  have hruns : ((system Nat Unit).replay emptyDatabase (publication ++ retirement)).isSome := by
    decide +kernel
  obtain ⟨store, hstore⟩ := Option.isSome_iff_exists.mp hruns
  have hrun := System.Reachable.commit_alone (S := system Nat Unit)
    (.refl : (system Nat Unit).Reachable emptyDatabase (Server.initial emptyDatabase))
    (fun _ => rfl) hstore
  obtain ⟨hone, hpoints⟩ := published_revisions_immutable hrun
  obtain ⟨point, hpoint, _, hchildren, _⟩ := hpoints publication retirement rfl
  exact ⟨_, hrun, rfl, hone, point, hpoint, fun revisionId h => (hchildren revisionId h).2⟩

end Registry
end Postgresem

import Postgresem.Compiler.DiffRevision

/-! The semantic diff reports every change once. What a diff is to say of one object depends on the
two versions of that object alone; the changes of a diff are the reports of the objects that
differ, each of them once. -/
namespace Postgresem
open Control
open Json (Value)

/-! ## Objects and their changes -/

/-- A model, or an object of the model `owner`. Paths do not tell these apart: a field `b.fields.c`
of the model `a` has the path of the field `c` of the model `a.fields.b`. -/
inductive SemanticObject where
  | model (name : String)
  | field (owner name : String)
  | metric (owner name : String)
  | relationship (owner name : String)
  deriving DecidableEq, Repr

def SemanticObject.kind : SemanticObject → SemanticObjectKind
  | .model _ => .model
  | .field _ _ => .field
  | .metric _ _ => .metric
  | .relationship _ _ => .relationship

def SemanticObject.path : SemanticObject → String
  | .model name => "models." ++ name
  | .field owner name => "models." ++ owner ++ "." ++ "fields" ++ "." ++ name
  | .metric owner name => "models." ++ owner ++ "." ++ "metrics" ++ "." ++ name
  | .relationship owner name => "models." ++ owner ++ "." ++ "relationships" ++ "." ++ name

/-- The name of the model that the object is, or belongs to. -/
def SemanticObject.modelName : SemanticObject → String
  | .model name => name
  | .field owner _ | .metric owner _ | .relationship owner _ => owner

/-- What became of an object, with its serialized versions. -/
structure ContentChange where
  change : ChangeKind
  before : Option Value
  after : Option Value

def ChangeKind.swap : ChangeKind → ChangeKind
  | .added => .removed
  | .removed => .added
  | .modified => .modified

def ContentChange.swap (content : ContentChange) : ContentChange :=
  { change := content.change.swap, before := content.after, after := content.before }

section Content
variable {α : Type} (same : α → α → Bool) (whole compared : α → Value)

/-- An object that is in both versions is compared by `same` and shown by `compared`. -/
def contentChange : Option α → Option α → Option ContentChange
  | some before, none =>
    some { change := .removed, before := some (whole before), after := none }
  | none, some after => some { change := .added, before := none, after := some (whole after) }
  | some before, some after =>
    if same before after then none
    else some
      { change := .modified, before := some (compared before), after := some (compared after) }
  | none, none => none

theorem contentChange_swap (hsame : ∀ before after, same before after = same after before)
    (before after : Option α) : contentChange same whole compared after before =
      (contentChange same whole compared before after).map ContentChange.swap := by
  cases before with
  | none => cases after <;> rfl
  | some before =>
    cases after with
    | none => rfl
    | some after =>
      rw [contentChange, contentChange, hsame]
      cases same before after <;> rfl

end Content

/-- A model is compared by what is its own: its fields, metrics and relationships are objects. -/
def sameMetadata (before after : Model) : Bool :=
  before.source == after.source && before.timezone == after.timezone
    && before.queryable == after.queryable && before.writable == after.writable

theorem sameMetadata_iff {before after : Model} :
    sameMetadata before after = true ↔ modelMetadata before = modelMetadata after := by
  rw [modelMetadata_eq_iff]
  simp only [sameMetadata, Bool.and_eq_true, beq_iff_eq, and_assoc]

def SemanticSnapshot.modelNamed (snapshot : SemanticSnapshot) (name : String) : Option Model :=
  snapshot.models.find? fun model => model.semanticName == name

/-- What became of an object of a model. The contents of an added or removed model count with the
model. -/
def withinModel {α : Type} [DecidableEq α] (before after : SemanticSnapshot) (owner : String)
    (find : Model → Option α) (toValue : α → Value) : Option ContentChange :=
  match before.modelNamed owner, after.modelNamed owner with
  | some model, some model' =>
    contentChange (fun left right => left == right) toValue toValue (find model) (find model')
  | _, _ => none

def objectChange (before after : SemanticSnapshot) : SemanticObject → Option ContentChange
  | .model name => contentChange sameMetadata Model.toValue modelMetadata
      (before.modelNamed name) (after.modelNamed name)
  | .field owner name => withinModel before after owner
      (fun model => model.fields.find? fun field => field.semanticName == name) Field.toValue
  | .metric owner name => withinModel before after owner
      (fun model => model.metrics.find? fun metric => metric.semanticName == name) Metric.toValue
  | .relationship owner name => withinModel before after owner
      (fun model => model.relationships.find? fun relationship =>
        relationship.semanticName == name) Relationship.toValue

/-- A change without its classification. -/
structure ChangeReport where
  path : String
  objectKind : SemanticObjectKind
  content : ContentChange

def SemanticChange.report (change : SemanticChange) : ChangeReport :=
  { path := change.path, objectKind := change.objectKind
    content := { change := change.change, before := change.before, after := change.after } }

def ChangeReport.swap (report : ChangeReport) : ChangeReport :=
  { report with content := report.content.swap }

def objectReport (before after : SemanticSnapshot) (object : SemanticObject) :
    Option ChangeReport :=
  (objectChange before after object).map fun content =>
    { path := object.path, objectKind := object.kind, content := content }

/-- The changes are the reports of the objects that differ, one for each of them. -/
def ReportsEachOnce (before after : SemanticSnapshot) (changes : List SemanticChange) : Prop :=
  ∃ objects : List SemanticObject, objects.Nodup ∧
    (∀ object, object ∈ objects ↔ (objectChange before after object).isSome = true) ∧
    (changes.map fun change => some change.report).Perm
      (objects.map (objectReport before after))

/-! ## One collection -/

theorem namedObjects_sorted {α : Type} {kind : String} {name : α → String} {objects : List α}
    {entries : List (String × α)} (h : namedObjects objects kind name = .ok entries) :
    OrderedMap.Sorted entries := (namedObjects_fold .nil h).1

section Collection
variable {α : Type} [DecidableEq α] {toValue : α → Value} {visible : α → Bool}
  {modifiedCompatibility : α → α → Compatibility} {before after : List (String × α)}

/-- The report on the object of a name in one collection. -/
def namedReport (modelPath collection : String) (objectKind : SemanticObjectKind)
    (toValue : α → Value) (before after : List (String × α)) (name : String) :
    Option ChangeReport :=
  (contentChange (fun left right => left == right) toValue toValue (before.lookup name)
    (after.lookup name)).map fun content =>
      { path := modelPath ++ "." ++ collection ++ "." ++ name, objectKind := objectKind
        content := content }

theorem keptChange_report (modelPath collection : String) (objectKind : SemanticObjectKind)
    {name : String} {object : α} (h : before.lookup name = some object) :
    (keptChange modelPath collection objectKind toValue visible modifiedCompatibility after
        (name, object)).map SemanticChange.report =
      namedReport modelPath collection objectKind toValue before after name := by
  unfold keptChange namedReport
  rw [h]
  cases after.lookup name with
  | none => rfl
  | some other =>
    by_cases hsame : object = other
    · simp [contentChange, hsame]
    · simp [contentChange, hsame, SemanticChange.report]

theorem addedChange_report (modelPath collection : String) (objectKind : SemanticObjectKind)
    {name : String} {object : α} (hbefore : before.lookup name = none)
    (h : after.lookup name = some object) :
    (addedChange modelPath collection objectKind toValue before (name, object)).map
        SemanticChange.report =
      namedReport modelPath collection objectKind toValue before after name := by
  unfold addedChange namedReport
  rw [h, hbefore]
  rfl

theorem diffNamed_report (hbefore : OrderedMap.Sorted before) (hafter : OrderedMap.Sorted after)
    (modelPath collection : String) (objectKind : SemanticObjectKind) :
    (diffNamed modelPath collection objectKind toValue visible modifiedCompatibility before
        after).map SemanticChange.report =
      (OrderedMap.unionKeys before after).filterMap
        (namedReport modelPath collection objectKind toValue before after) := by
  rw [diffNamed, OrderedMap.unionKeys, List.map_append, List.filterMap_append,
    List.map_filterMap, List.map_filterMap, List.filterMap_filter, List.filterMap_map,
    List.filterMap_map]
  congr 1
  · refine List.filterMap_congr ?_
    rintro ⟨name, object⟩ he
    exact keptChange_report modelPath collection objectKind (hbefore.mem_iff.mp he)
  · refine List.filterMap_congr ?_
    rintro ⟨name, object⟩ he
    cases hfound : before.lookup name with
    | none =>
      simp only [Function.comp_apply, hfound, Option.isNone_none, if_true]
      exact addedChange_report modelPath collection objectKind hfound (hafter.mem_iff.mp he)
    | some other => simp [addedChange, hfound]

end Collection

/-! ## One model and all models -/

/-- The changes are the reports of the objects that belong to the models of some names. -/
structure Accounted (before after : SemanticSnapshot) (names : List String)
    (changes : List SemanticChange) (objects : List SemanticObject) : Prop where
  nodup : objects.Nodup
  within : ∀ object ∈ objects, object.modelName ∈ names
  complete : ∀ object, object.modelName ∈ names →
    (objectChange before after object).isSome = true → object ∈ objects
  reports : changes.map SemanticChange.report = objects.filterMap (objectReport before after)

section Accounted
variable {before after : SemanticSnapshot}

theorem Accounted.nil : Accounted before after [] [] [] :=
  ⟨List.nodup_nil, by simp, by simp, rfl⟩

theorem Accounted.append {names names' : List String} {changes changes' : List SemanticChange}
    {objects objects' : List SemanticObject} (h : Accounted before after names changes objects)
    (h' : Accounted before after names' changes' objects') (hdisjoint : names.Disjoint names') :
    Accounted before after (names ++ names') (changes ++ changes') (objects ++ objects') := by
  constructor
  · refine List.nodup_append.mpr ⟨h.nodup, h'.nodup, ?_⟩
    rintro object ho other ho' rfl
    exact hdisjoint (h.within object ho) (h'.within object ho')
  · intro object ho
    rcases List.mem_append.mp ho with ho | ho
    · exact List.mem_append_left _ (h.within object ho)
    · exact List.mem_append_right _ (h'.within object ho)
  · intro object hname hchange
    rcases List.mem_append.mp hname with hname | hname
    · exact List.mem_append_left _ (h.complete object hname hchange)
    · exact List.mem_append_right _ (h'.complete object hname hchange)
  · rw [List.map_append, List.filterMap_append, h.reports, h'.reports]

/-- A model of one snapshot only: its contents count with it. -/
theorem Accounted.single {name : String} {change : SemanticChange}
    (hmissing : before.modelNamed name = none ∨ after.modelNamed name = none)
    (hreport : objectReport before after (.model name) = some change.report) :
    Accounted before after [name] [change] [.model name] := by
  have hwithin : ∀ {α : Type} [DecidableEq α] (find : Model → Option α) (toValue : α → Value),
      withinModel before after name find toValue = none := by
    intro α _ find toValue
    unfold withinModel
    rcases hmissing with hmissing | hmissing
    · rw [hmissing]
    · rw [hmissing]
      cases before.modelNamed name <;> rfl
  constructor
  · exact List.nodup_singleton _
  · simp [SemanticObject.modelName]
  · intro object hname hchange
    rw [List.mem_singleton] at hname ⊢
    cases object with
    | model other => rw [← hname, SemanticObject.modelName]
    | field owner other =>
      obtain rfl : owner = name := hname
      rw [objectChange, hwithin] at hchange
      cases hchange
    | metric owner other =>
      obtain rfl : owner = name := hname
      rw [objectChange, hwithin] at hchange
      cases hchange
    | relationship owner other =>
      obtain rfl : owner = name := hname
      rw [objectChange, hwithin] at hchange
      cases hchange
  · rw [List.filterMap_cons, hreport]
    rfl

theorem contentChange_isSome {α : Type} {same : α → α → Bool} {whole compared : α → Value}
    {before after : Option α} (h : (contentChange same whole compared before after).isSome = true) :
    before.isSome = true ∨ after.isSome = true := by
  cases before with
  | some before => exact Or.inl rfl
  | none =>
    cases after with
    | some after => exact Or.inr rfl
    | none => cases h

section Both
variable {name : String} {model model' : Model} (hbefore : before.modelNamed name = some model)
  (hafter : after.modelNamed name = some model')
include hbefore hafter

/-- One collection of a model that both snapshots have; `make` says which objects it holds. -/
theorem collection_reports {α : Type} [DecidableEq α] {itemName : α → String} {toValue : α → Value}
    (visible : α → Bool) (modifiedCompatibility : α → α → Compatibility) {kind collection : String}
    {objectKind : SemanticObjectKind} {items : Model → List α}
    {entries entries' : List (String × α)} (make : String → SemanticObject)
    (hentries : namedObjects (items model) kind itemName = .ok entries)
    (hentries' : namedObjects (items model') kind itemName = .ok entries')
    (hreport : ∀ item, objectReport before after (make item) =
      (withinModel before after name
        (fun model => (items model).find? fun object => itemName object == item) toValue).map
        fun content =>
          { path := "models." ++ name ++ "." ++ collection ++ "." ++ item, objectKind := objectKind
            content := content }) :
    (diffNamed ("models." ++ name) collection objectKind toValue visible modifiedCompatibility
        entries entries').map SemanticChange.report =
        ((OrderedMap.unionKeys entries entries').map make).filterMap (objectReport before after) ∧
      ∀ item, (objectReport before after (make item)).isSome = true →
        make item ∈ (OrderedMap.unionKeys entries entries').map make := by
  have hsorted := namedObjects_sorted hentries
  have hsorted' := namedObjects_sorted hentries'
  have hnamed : ∀ item, objectReport before after (make item) =
      namedReport ("models." ++ name) collection objectKind toValue entries entries' item := by
    intro item
    rw [hreport, namedReport, withinModel, hbefore, hafter, (namedObjects_ok hentries).lookup,
      (namedObjects_ok hentries').lookup]
  constructor
  · rw [diffNamed_report hsorted hsorted', List.filterMap_map]
    exact List.filterMap_congr fun item _ => (hnamed item).symm
  · intro item hitem
    rw [hnamed, namedReport, Option.isSome_map] at hitem
    exact List.mem_map_of_mem ((OrderedMap.mem_unionKeys hsorted hsorted').mpr
      (contentChange_isSome hitem))

theorem metadata_report : (metadataChange ("models." ++ name) model model').map
    SemanticChange.report = [SemanticObject.model name].filterMap (objectReport before after) := by
  have hsame : sameMetadata model model' = decide (modelMetadata model = modelMetadata model') := by
    rw [Bool.eq_iff_iff, decide_eq_true_iff, sameMetadata_iff]
  have hreport : objectReport before after (.model name) =
      if modelMetadata model = modelMetadata model' then none
      else some
        { path := "models." ++ name, objectKind := .model
          content :=
            { change := .modified, before := some (modelMetadata model)
              after := some (modelMetadata model') } } := by
    rw [objectReport, objectChange, hbefore, hafter, contentChange, hsame]
    by_cases hmetadata : modelMetadata model = modelMetadata model'
    · simp [hmetadata]
    · simp [hmetadata, SemanticObject.path, SemanticObject.kind]
  rw [List.filterMap_cons, hreport, metadataChange]
  by_cases hmetadata : modelMetadata model = modelMetadata model'
  · simp [hmetadata]
  · simp [hmetadata, SemanticChange.report]

theorem Accounted.both {changes : List SemanticChange} {afterModels : List (String × Model)}
    (hlookup : afterModels.lookup name = some model')
    (h : diffModel afterModels (name, model) = .ok changes) :
    ∃ objects, Accounted before after [name] changes objects := by
  simp only [diffModel, hlookup, diffFields, diffMetrics, diffRelationships, bind_eq_ok,
    pure_eq_ok] at h
  obtain ⟨_, ⟨fields, hf, fields', hf', rfl⟩, _, ⟨metrics, hm, metrics', hm', rfl⟩, _,
    ⟨relationships, hr, relationships', hr', rfl⟩, rfl⟩ := h
  obtain ⟨hfields, hfieldMem⟩ := collection_reports hbefore hafter Field.visible
    fieldCompatibility (.field name) hf hf' fun _ => rfl
  obtain ⟨hmetrics, hmetricMem⟩ := collection_reports hbefore hafter Metric.visible
    metricCompatibility (.metric name) hm hm' fun _ => rfl
  obtain ⟨hrelationships, hrelationshipMem⟩ := collection_reports hbefore hafter (fun _ => true)
    (fun _ _ => .breaking) (.relationship name) hr hr' fun _ => rfl
  have hnodup : ∀ {α : Type} {kind : String} {itemName : α → String} {items items' : List α}
      {entries entries' : List (String × α)} (make : String → SemanticObject),
      namedObjects items kind itemName = .ok entries →
      namedObjects items' kind itemName = .ok entries' → make.Injective →
      ((OrderedMap.unionKeys entries entries').map make).Nodup :=
    fun _ h h' hinjective => (OrderedMap.nodup_unionKeys (namedObjects_sorted h)
      (namedObjects_sorted h')).map hinjective
  refine ⟨[.model name] ++ (OrderedMap.unionKeys fields fields').map (.field name)
    ++ (OrderedMap.unionKeys metrics metrics').map (.metric name)
    ++ (OrderedMap.unionKeys relationships relationships').map (.relationship name), ?_, ?_, ?_, ?_⟩
  · have hfield := hnodup (.field name) hf hf' fun _ _ heq => by injection heq
    have hmetric := hnodup (.metric name) hm hm' fun _ _ heq => by injection heq
    have hrelationship := hnodup (.relationship name) hr hr' fun _ _ heq => by injection heq
    -- The four parts hold objects of different kinds.
    refine ((List.nodup_singleton _).append hfield ?_ |>.append hmetric ?_).append hrelationship ?_
    · simp
    · simp [List.Disjoint]
    · simp only [List.disjoint_left, List.mem_append, List.mem_map]
      rintro object ((ho | ⟨item, -, rfl⟩) | ⟨item, -, rfl⟩) ⟨other, -, heq⟩
      · rw [List.mem_singleton.mp ho] at heq
        cases heq
      · cases heq
      · cases heq
  · intro object ho
    simp only [List.mem_append, List.mem_singleton, List.mem_map] at ho
    rw [List.mem_singleton]
    rcases ho with ((rfl | ⟨_, _, rfl⟩) | ⟨_, _, rfl⟩) | ⟨_, _, rfl⟩ <;> rfl
  · intro object hname hchange
    rw [List.mem_singleton] at hname
    have hreport : (objectReport before after object).isSome = true := by
      rwa [objectReport, Option.isSome_map]
    simp only [List.mem_append]
    cases object with
    | model other =>
      obtain rfl : other = name := hname
      exact Or.inl (Or.inl (Or.inl (List.mem_singleton_self _)))
    | field owner item =>
      obtain rfl : owner = name := hname
      exact Or.inl (Or.inl (Or.inr (hfieldMem item hreport)))
    | metric owner item =>
      obtain rfl : owner = name := hname
      exact Or.inl (Or.inr (hmetricMem item hreport))
    | relationship owner item =>
      obtain rfl : owner = name := hname
      exact Or.inr (hrelationshipMem item hreport)
  · rw [List.map_append, List.map_append, List.map_append, List.filterMap_append,
      List.filterMap_append, List.filterMap_append, hfields, hmetrics, hrelationships,
      metadata_report hbefore hafter]

end Both

/-- One round of the loop over the models of the first snapshot. -/
theorem accounted_diffModel {beforeModels afterModels : List (String × Model)}
    (hbefore : Names Model.semanticName before.models beforeModels)
    (hafter : Names Model.semanticName after.models afterModels) {entry : String × Model}
    (hentry : entry ∈ beforeModels) {changes : List SemanticChange}
    (h : diffModel afterModels entry = .ok changes) :
    ∃ objects, Accounted before after [entry.1] changes objects := by
  obtain ⟨name, model⟩ := entry
  have hmodel : before.modelNamed name = some model :=
    (Named.find?_eq_some_iff hbefore.nodup).mpr ((hbefore.mem _ _).mp hentry)
  cases hlookup : afterModels.lookup name with
  | none =>
    have hmissing : after.modelNamed name = none := by rwa [hafter.lookup] at hlookup
    simp only [diffModel, hlookup, pure_eq_ok] at h
    subst h
    refine ⟨_, Accounted.single (Or.inr hmissing) ?_⟩
    rw [objectReport, objectChange, hmodel, hmissing]
    rfl
  | some model' =>
    have hmodel' : after.modelNamed name = some model' := by rwa [hafter.lookup] at hlookup
    exact Accounted.both hmodel hmodel' hlookup h

/-- The loop over the models of the first snapshot. -/
theorem accounted_mapM {beforeModels afterModels : List (String × Model)}
    (hbefore : Names Model.semanticName before.models beforeModels)
    (hafter : Names Model.semanticName after.models afterModels)
    {entries : List (String × Model)} {changed : List (List SemanticChange)}
    (hentries : ∀ entry ∈ entries, entry ∈ beforeModels) (hnodup : (entries.map Prod.fst).Nodup)
    (h : List.Forall₂ (fun entry changes => diffModel afterModels entry = .ok changes)
      entries changed) :
    ∃ objects, Accounted before after (entries.map Prod.fst) changed.flatten objects := by
  induction h with
  | nil => exact ⟨[], .nil⟩
  | @cons entry changes entries changed hentry _ ih =>
    rw [List.map_cons, List.nodup_cons] at hnodup
    obtain ⟨objects, hobjects⟩ := accounted_diffModel hbefore hafter (hentries entry (by simp)) hentry
    obtain ⟨rest, hrest⟩ := ih (fun other ho => hentries other (by simp [ho])) hnodup.2
    refine ⟨objects ++ rest, hobjects.append hrest ?_⟩
    rw [List.singleton_disjoint]
    exact hnodup.1

/-- The loop over the models of the second snapshot, which reports those that the first one does
not have. -/
theorem accounted_added {beforeModels afterModels : List (String × Model)}
    (hbefore : Names Model.semanticName before.models beforeModels)
    (hafter : Names Model.semanticName after.models afterModels)
    {entries : List (String × Model)} (hentries : ∀ entry ∈ entries, entry ∈ afterModels)
    (hnodup : (entries.map Prod.fst).Nodup) :
    ∃ objects, Accounted before after
      ((entries.map Prod.fst).filter fun name => (beforeModels.lookup name).isNone)
      (entries.filterMap (addedModel beforeModels)) objects := by
  induction entries with
  | nil => exact ⟨[], .nil⟩
  | cons entry entries ih =>
    rw [List.map_cons, List.nodup_cons] at hnodup
    obtain ⟨rest, hrest⟩ := ih (fun other ho => hentries other (by simp [ho])) hnodup.2
    obtain ⟨name, model⟩ := entry
    cases hlookup : beforeModels.lookup name with
    | some other =>
      refine ⟨rest, ?_⟩
      rw [List.map_cons, List.filter_cons_of_neg (by simp [hlookup]), List.filterMap_cons_none
        (by simp [addedModel, hlookup])]
      exact hrest
    | none =>
      have hmissing : before.modelNamed name = none := by rwa [hbefore.lookup] at hlookup
      have hmodel : after.modelNamed name = some model :=
        (Named.find?_eq_some_iff hafter.nodup).mpr ((hafter.mem _ _).mp (hentries _ (by simp)))
      have hadded : addedModel beforeModels (name, model) = some
          { path := "models." ++ name, objectKind := .model, change := .added
            compatibility := .compatible, before := none, after := some model.toValue } := by
        rw [addedModel, hlookup]
        rfl
      have hsingle : Accounted before after [name]
          [{ path := "models." ++ name, objectKind := .model, change := .added
             compatibility := .compatible, before := none, after := some model.toValue }]
          [.model name] := by
        apply Accounted.single (Or.inl hmissing)
        rw [objectReport, objectChange, hmodel, hmissing]
        rfl
      rw [List.map_cons, List.filter_cons_of_pos (by simp [hlookup]),
        List.filterMap_cons_some hadded]
      refine ⟨_, hsingle.append hrest ?_⟩
      rw [List.singleton_disjoint]
      exact fun hmem => hnodup.1 (List.mem_of_mem_filter hmem)

end Accounted

/-! ## Whole snapshots -/

theorem modelName_of_change {before after : SemanticSnapshot} {object : SemanticObject}
    (h : (objectChange before after object).isSome = true) :
    (before.modelNamed object.modelName).isSome = true ∨
      (after.modelNamed object.modelName).isSome = true := by
  have hwithin : ∀ {α : Type} [DecidableEq α] {owner : String} {find : Model → Option α}
      {toValue : α → Value}, (withinModel before after owner find toValue).isSome = true →
      (before.modelNamed owner).isSome = true := by
    intro α _ owner find toValue hsome
    unfold withinModel at hsome
    cases hmodel : before.modelNamed owner with
    | none => simp [hmodel] at hsome
    | some model => rfl
  cases object with
  | model name => exact contentChange_isSome h
  | field owner name => exact Or.inl (hwithin h)
  | metric owner name => exact Or.inl (hwithin h)
  | relationship owner name => exact Or.inl (hwithin h)

theorem map_some_filterMap {α β : Type} (f : α → Option β) (xs : List α) :
    (xs.filterMap f).map some = (xs.filter fun x => (f x).isSome).map f := by
  induction xs with
  | nil => rfl
  | cons x xs ih =>
    cases hx : f x with
    | none => rw [List.filterMap_cons_none hx, List.filter_cons_of_neg (by simp [hx]), ih]
    | some y =>
      rw [List.filterMap_cons_some hx, List.filter_cons_of_pos (by simp [hx]), List.map_cons,
        List.map_cons, ih, hx]

/-- The changes of a diff are the reports of the objects that differ, each of them once. -/
theorem diffSnapshots_reports {before after : SemanticSnapshot} {diff : SemanticDiff}
    (h : diffSnapshots before after = .ok diff) :
    ReportsEachOnce before.normalized after.normalized diff.changes := by
  simp only [diffSnapshots, bind_eq_ok, pure_eq_ok] at h
  obtain ⟨_, -, _, -, beforeModels, hbm, afterModels, ham, changed, hchanged, rfl⟩ := h
  have hbefore := namedObjects_ok hbm
  have hafter := namedObjects_ok ham
  have hsorted := namedObjects_sorted hbm
  have hsorted' := namedObjects_sorted ham
  obtain ⟨objects, hobjects⟩ := accounted_mapM hbefore hafter (fun _ he => he) hsorted.nodup_keys
    (mapM_eq_ok_iff.mp hchanged)
  obtain ⟨added, hadded⟩ := accounted_added hbefore hafter (fun _ he => he) hsorted'.nodup_keys
  have hall := hobjects.append hadded
    (List.nodup_append'.mp (OrderedMap.nodup_unionKeys hsorted hsorted')).2.2
  rw [← OrderedMap.unionKeys] at hall
  refine ⟨(objects ++ added).filter fun object =>
    (objectReport before.normalized after.normalized object).isSome, hall.nodup.filter _, ?_, ?_⟩
  · intro object
    rw [List.mem_filter, objectReport, Option.isSome_map]
    constructor
    · exact fun hobject => hobject.2
    · intro hchange
      have hmodel := modelName_of_change hchange
      rw [SemanticSnapshot.modelNamed, SemanticSnapshot.modelNamed, ← hbefore.lookup,
        ← hafter.lookup, ← OrderedMap.mem_unionKeys hsorted hsorted'] at hmodel
      exact ⟨hall.complete object hmodel hchange, hchange⟩
  · rw [← map_some_filterMap, ← hall.reports, List.map_map]
    exact (List.perm_insertionSort _ _).map _

/-! ## The diff in the other direction -/

theorem SemanticSnapshot.UniqueNames.normalized {snapshot : SemanticSnapshot}
    (h : snapshot.UniqueNames) : snapshot.normalized.UniqueNames := by
  constructor
  · rw [SemanticSnapshot.normalized, List.map_map]
    exact ((sortByKeys_perm _ _).map _).nodup_iff.mpr h.models
  · intro model hm
    obtain ⟨original, ho, rfl⟩ := mem_normalized.mp hm
    exact (h.each original ho).normalized

/-- Snapshots whose versions and names are accepted have a diff. -/
theorem diffSnapshots_total {before after : SemanticSnapshot}
    (hbefore : validateVersion before = .ok ()) (hafter : validateVersion after = .ok ()) :
    ∃ diff, diffSnapshots before after = .ok diff := by
  have hunique := (validateVersion_ok hbefore).normalized
  have hunique' := (validateVersion_ok hafter).normalized
  obtain ⟨beforeModels, hbm⟩ := namedObjects_of_nodup "model" hunique.models
  obtain ⟨afterModels, ham⟩ := namedObjects_of_nodup "model" hunique'.models
  have heach : ∀ entry ∈ beforeModels, ∃ changes, diffModel afterModels entry = .ok changes := by
    rintro ⟨name, model⟩ he
    have hnames := hunique.each model (((namedObjects_ok hbm).mem _ _).mp he).1
    unfold diffModel
    cases hfound : afterModels.lookup name with
    | none => exact ⟨_, rfl⟩
    | some model' =>
      rw [(namedObjects_ok ham).lookup, Named.find?_eq_some_iff hunique'.models] at hfound
      have hnames' := hunique'.each model' hfound.1
      obtain ⟨_, hf⟩ := namedObjects_of_nodup "field" hnames.fields
      obtain ⟨_, hf'⟩ := namedObjects_of_nodup "field" hnames'.fields
      obtain ⟨_, hm⟩ := namedObjects_of_nodup "metric" hnames.metrics
      obtain ⟨_, hm'⟩ := namedObjects_of_nodup "metric" hnames'.metrics
      obtain ⟨_, hr⟩ := namedObjects_of_nodup "relationship" hnames.relationships
      obtain ⟨_, hr'⟩ := namedObjects_of_nodup "relationship" hnames'.relationships
      simp only [diffFields, diffMetrics, diffRelationships, hf, hf', hm, hm', hr, hr', ok_bind,
        pure_ok]
      exact ⟨_, rfl⟩
  obtain ⟨changed, hchanged⟩ := exists_mapM_ok heach
  simp only [diffSnapshots, hbefore, hafter, namedModels, hbm, ham, hchanged, ok_bind, pure_ok]
  exact ⟨_, rfl⟩

theorem objectChange_swap (before after : SemanticSnapshot) (object : SemanticObject) :
    objectChange after before object =
      (objectChange before after object).map ContentChange.swap := by
  have hbeq : ∀ {α : Type} [DecidableEq α] (left right : α), (left == right) = (right == left) := by
    intro α _ left right
    rw [Bool.eq_iff_iff, beq_iff_eq, beq_iff_eq, eq_comm]
  have hwithin : ∀ {α : Type} [DecidableEq α] (owner : String) (find : Model → Option α)
      (toValue : α → Value), withinModel after before owner find toValue =
        (withinModel before after owner find toValue).map ContentChange.swap := by
    intro α _ owner find toValue
    unfold withinModel
    cases before.modelNamed owner with
    | none => cases after.modelNamed owner <;> rfl
    | some model =>
      cases after.modelNamed owner with
      | none => rfl
      | some model' => exact contentChange_swap _ _ _ hbeq _ _
  cases object with
  | model name =>
    refine contentChange_swap _ _ _ (fun model model' => ?_) _ _
    rw [Bool.eq_iff_iff, sameMetadata_iff, sameMetadata_iff, eq_comm]
  | field owner name => exact hwithin owner _ _
  | metric owner name => exact hwithin owner _ _
  | relationship owner name => exact hwithin owner _ _

theorem objectReport_swap (before after : SemanticSnapshot) (object : SemanticObject) :
    objectReport after before object =
      (objectReport before after object).map ChangeReport.swap := by
  rw [objectReport, objectReport, objectChange_swap, Option.map_map, Option.map_map]
  rfl

/-- Changes that report the same objects in both directions are each other's mirror image. -/
theorem ReportsEachOnce.swap {before after : SemanticSnapshot}
    {changes changes' : List SemanticChange} (h : ReportsEachOnce before after changes)
    (h' : ReportsEachOnce after before changes') :
    (changes'.map SemanticChange.report).Perm
      (changes.map fun change => change.report.swap) := by
  obtain ⟨objects, hnodup, hmem, hperm⟩ := h
  obtain ⟨objects', hnodup', hmem', hperm'⟩ := h'
  have hobjects : objects'.Perm objects := by
    rw [List.perm_ext_iff_of_nodup hnodup' hnodup]
    intro object
    rw [hmem', hmem, objectChange_swap, Option.isSome_map]
  have hmirror : (changes'.map fun change => some change.report).Perm
      (changes.map fun change => some change.report.swap) := by
    refine hperm'.trans ((hobjects.map _).trans ?_)
    rw [List.map_congr_left fun object _ => objectReport_swap before after object]
    have hswapped := hperm.symm.map (Option.map ChangeReport.swap)
    rwa [List.map_map, List.map_map] at hswapped
  rw [← List.map_perm_map_iff (Option.some_injective ChangeReport), List.map_map, List.map_map]
  exact hmirror

/-! ## The semantic diff -/

/-- The counts of a summary add up, and one breaking change makes the diff breaking. -/
structure CountsAddUp (diff : SemanticDiff) : Prop where
  total : diff.summary.total = diff.changes.length
  compatible : diff.summary.compatible =
    diff.changes.countP fun change => change.compatibility == .compatible
  breaking : diff.summary.breaking =
    diff.changes.countP fun change => change.compatibility == .breaking
  sum : diff.summary.total = diff.summary.compatible + diff.summary.breaking
  overall : diff.compatibility = .breaking ↔
    ∃ change ∈ diff.changes, change.compatibility = .breaking

theorem summarize_counts (before after : SemanticSnapshot) (changes : List SemanticChange) :
    CountsAddUp (summarize before after changes) := by
  have hsplit : changes.length = (changes.countP fun change => change.compatibility == .compatible)
      + changes.countP fun change => change.compatibility == .breaking := by
    rw [List.length_eq_countP_add_countP fun change : SemanticChange =>
      change.compatibility == .compatible]
    congr 1
    refine List.countP_congr fun change _ => ?_
    cases change.compatibility <;> decide
  have hfilter := List.countP_eq_length_filter (p := fun change : SemanticChange =>
    change.compatibility == .breaking) (l := changes)
  constructor
  · rfl
  · simp only [summarize, ← hfilter]
    omega
  · exact hfilter.symm
  · simp only [summarize, ← hfilter]
    omega
  · simp only [summarize, ite_eq_right_iff, reduceCtorEq, imp_false, ← hfilter,
      List.countP_eq_zero, not_forall, beq_iff_eq, not_not, exists_prop]

/-- The diff is empty exactly when the normal forms agree; each object that differs is reported
once; the diff in the other direction is the mirror image; the counts add up. -/
theorem semantic_diff_complete {before after : SemanticSnapshot} {diff : SemanticDiff}
    (h : diffSnapshots before after = .ok diff) :
    (diff.changes = [] ↔ before.normalized.models = after.normalized.models) ∧
      ReportsEachOnce before.normalized after.normalized diff.changes ∧
      (∃ mirror, diffSnapshots after before = .ok mirror ∧
        (mirror.changes.map SemanticChange.report).Perm
          (diff.changes.map fun change => change.report.swap)) ∧
      CountsAddUp diff := by
  have hreports := diffSnapshots_reports h
  refine ⟨diffSnapshots_eq_nil h, hreports, ?_, ?_⟩
  · simp only [diffSnapshots, bind_eq_ok] at h
    obtain ⟨_, hbefore, _, hafter, -⟩ := h
    obtain ⟨mirror, hmirror⟩ := diffSnapshots_total hafter hbefore
    exact ⟨mirror, hmirror, hreports.swap (diffSnapshots_reports hmirror)⟩
  · simp only [diffSnapshots, bind_eq_ok, pure_eq_ok] at h
    obtain ⟨_, -, _, -, _, -, _, -, _, -, rfl⟩ := h
    exact summarize_counts _ _ _

/-- The margin that one snapshot adds. -/
theorem margin_diff_complete : ∃ diff, diffSnapshots openSnapshot marginSnapshot = .ok diff ∧
    (diff.changes = [] ↔ openSnapshot.normalized.models = marginSnapshot.normalized.models) ∧
      ReportsEachOnce openSnapshot.normalized marginSnapshot.normalized diff.changes ∧
      (∃ mirror, diffSnapshots marginSnapshot openSnapshot = .ok mirror ∧
        (mirror.changes.map SemanticChange.report).Perm
          (diff.changes.map fun change => change.report.swap)) ∧
      CountsAddUp diff := by
  have hok : succeedsWith (diffSnapshots openSnapshot marginSnapshot) (fun _ => true) = true := by
    decide +kernel
  obtain ⟨diff, hdiff, -⟩ := exists_ok_of_succeedsWith hok
  exact ⟨diff, hdiff, semantic_diff_complete hdiff⟩

end Postgresem

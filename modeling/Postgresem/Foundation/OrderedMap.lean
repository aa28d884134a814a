import Mathlib.Data.List.Nodup
import Mathlib.Data.List.Perm.Basic
import Mathlib.Order.Lattice

/-! Ordered maps as lists of entries with strictly increasing keys, with the insertion of a
`BTreeMap`. -/
namespace OrderedMap

variable {κ α : Type} [LinearOrder κ]

/-- Replaces the value of a key that is there, and puts a new key in its place. -/
def insert (key : κ) (value : α) : List (κ × α) → List (κ × α)
  | [] => [(key, value)]
  | (head, first) :: rest =>
    if key < head then (key, value) :: (head, first) :: rest
    else if key = head then (key, value) :: rest
    else (head, first) :: insert key value rest

def Sorted (entries : List (κ × α)) : Prop := entries.Pairwise fun left right => left.1 < right.1

instance (entries : List (κ × α)) : Decidable (Sorted entries) :=
  inferInstanceAs (Decidable (entries.Pairwise _))

theorem lookup_cons (key other : κ) (value : α) (entries : List (κ × α)) :
    ((key, value) :: entries).lookup other =
      if other = key then some value else entries.lookup other := by
  by_cases h : other = key
  · subst h
    rw [List.lookup_cons_self, if_pos rfl]
  · rw [List.lookup_cons, beq_false_of_ne h, if_neg h]

theorem lookup_insert (key other : κ) (value : α) (entries : List (κ × α)) :
    (insert key value entries).lookup other =
      if other = key then some value else entries.lookup other := by
  induction entries with
  | nil => exact lookup_cons key other value []
  | cons entry rest ih =>
    obtain ⟨head, first⟩ := entry
    rw [insert]
    by_cases hlt : key < head
    · rw [if_pos hlt, lookup_cons]
    · rw [if_neg hlt]
      by_cases heq : key = head
      · subst heq
        rw [if_pos rfl, lookup_cons, lookup_cons]
        by_cases hkey : other = key <;> simp [hkey]
      · rw [if_neg heq, lookup_cons, lookup_cons, ih]
        by_cases hkey : other = key
        · have hne : other ≠ head := by rwa [hkey]
          rw [if_neg hne, if_pos hkey, if_pos hkey]
        · rw [if_neg hkey, if_neg hkey]

theorem mem_insert {key : κ} {value : α} {entry : κ × α} {entries : List (κ × α)}
    (h : entry ∈ insert key value entries) : entry = (key, value) ∨ entry ∈ entries := by
  induction entries with
  | nil => simpa [insert] using h
  | cons first rest ih =>
    rw [insert] at h
    split_ifs at h with hlt heq
    · simpa using h
    · rcases List.mem_cons.mp h with h | h
      · exact Or.inl h
      · exact Or.inr (by simp [h])
    · rcases List.mem_cons.mp h with h | h
      · exact Or.inr (by simp [h])
      · rcases ih h with h | h
        · exact Or.inl h
        · exact Or.inr (by simp [h])

theorem sorted_insert (key : κ) (value : α) {entries : List (κ × α)} (h : Sorted entries) :
    Sorted (insert key value entries) := by
  induction entries with
  | nil => simp [insert, Sorted]
  | cons first rest ih =>
    obtain ⟨hhead, hrest⟩ := List.pairwise_cons.mp h
    rw [insert]
    split_ifs with hlt heq
    · refine List.pairwise_cons.mpr ⟨?_, h⟩
      intro entry he
      rcases List.mem_cons.mp he with rfl | he
      · exact hlt
      · exact lt_trans hlt (hhead entry he)
    · exact List.pairwise_cons.mpr ⟨by rwa [heq], hrest⟩
    · refine List.pairwise_cons.mpr ⟨?_, ih hrest⟩
      intro entry he
      rcases mem_insert he with rfl | he
      · exact lt_of_le_of_ne (not_lt.mp hlt) (Ne.symm heq)
      · exact hhead entry he

/-- In a sorted map the entries are what lookups answer. -/
theorem Sorted.mem_iff {entries : List (κ × α)} (h : Sorted entries) {key : κ} {value : α} :
    (key, value) ∈ entries ↔ entries.lookup key = some value := by
  induction entries with
  | nil => simp
  | cons entry rest ih =>
    obtain ⟨head, first⟩ := entry
    obtain ⟨hhead, hrest⟩ := List.pairwise_cons.mp h
    rw [List.mem_cons, lookup_cons, ih hrest]
    by_cases hkey : key = head
    · subst hkey
      have hnone : rest.lookup key ≠ some value := fun hvalue =>
        lt_irrefl key (hhead (key, value) ((ih hrest).mpr hvalue))
      simp [hnone, eq_comm]
    · simp [hkey]

/-- Maps with the same lookups are the same. -/
theorem Sorted.ext {entries others : List (κ × α)} (h : Sorted entries) (h' : Sorted others)
    (hlookup : ∀ key, entries.lookup key = others.lookup key) : entries = others := by
  have hnodup : ∀ {entries : List (κ × α)}, Sorted entries → entries.Nodup := fun hs =>
    hs.imp fun hlt heq => (ne_of_lt hlt) (congrArg Prod.fst heq)
  have hperm : entries.Perm others := by
    rw [List.perm_ext_iff_of_nodup (hnodup h) (hnodup h')]
    rintro ⟨key, value⟩
    rw [h.mem_iff, h'.mem_iff, hlookup]
  refine hperm.eq_of_pairwise ?_ h h'
  intro a b _ _ hab hba
  exact absurd (lt_trans hab hba) (lt_irrefl _)

/-- Insertions under different keys commute. -/
theorem insert_comm {key other : κ} (hne : key ≠ other) (value first : α) {entries : List (κ × α)}
    (h : Sorted entries) :
    insert key value (insert other first entries) = insert other first (insert key value entries) := by
  refine (sorted_insert key value (sorted_insert other first h)).ext
    (sorted_insert other first (sorted_insert key value h)) fun name => ?_
  rw [lookup_insert, lookup_insert, lookup_insert, lookup_insert]
  by_cases hkey : name = key
  · rw [if_pos hkey, if_pos hkey, if_neg (by rwa [hkey])]
  · rw [if_neg hkey, if_neg hkey]

theorem insert_last {key : κ} {value : α} {entries : List (κ × α)}
    (h : ∀ entry ∈ entries, entry.1 < key) : insert key value entries = entries ++ [(key, value)] := by
  induction entries with
  | nil => rfl
  | cons entry rest ih =>
    obtain ⟨head, first⟩ := entry
    obtain ⟨hhead, hrest⟩ := List.forall_mem_cons.mp h
    rw [insert, if_neg (not_lt_of_gt hhead), if_neg (ne_of_gt hhead), ih hrest, List.cons_append]

/-- The map of a list of entries; of several with one key the last one stays. -/
def ofEntries (entries : List (κ × α)) : List (κ × α) :=
  entries.foldl (fun map entry => insert entry.1 entry.2 map) []

theorem sorted_ofEntries (entries : List (κ × α)) : Sorted (ofEntries entries) := by
  unfold ofEntries
  generalize hmap : ([] : List (κ × α)) = map
  have h : Sorted map := by
    subst hmap
    exact .nil
  clear hmap
  induction entries generalizing map with
  | nil => exact h
  | cons entry rest ih => exact ih _ (sorted_insert entry.1 entry.2 h)

theorem mem_foldl_insert {entries map : List (κ × α)} {entry : κ × α}
    (h : entry ∈ entries.foldl (fun map entry => insert entry.1 entry.2 map) map) :
    entry ∈ entries ∨ entry ∈ map := by
  induction entries generalizing map with
  | nil => exact .inr h
  | cons first rest ih =>
    rcases ih h with hrest | hinsert
    · exact .inl (List.mem_cons_of_mem _ hrest)
    · rcases mem_insert hinsert with heq | hmap
      · exact .inl (heq ▸ List.mem_cons_self)
      · exact .inr hmap

theorem mem_ofEntries {entries : List (κ × α)} {entry : κ × α} (h : entry ∈ ofEntries entries) :
    entry ∈ entries := by
  rcases mem_foldl_insert h with hentries | hnil
  · exact hentries
  · cases hnil

theorem perm_insert {key : κ} {value : α} {entries : List (κ × α)} (h : key ∉ entries.map Prod.fst) :
    (insert key value entries).Perm ((key, value) :: entries) := by
  induction entries with
  | nil => exact .refl _
  | cons entry entries ih =>
    obtain ⟨hfirst, hrest⟩ := not_or.mp (fun hmem => h (List.mem_cons.mpr hmem))
    rw [insert]
    split_ifs
    · exact .refl _
    · exact ((ih hrest).cons _).trans (.swap _ _ _)

/-- With distinct keys no entry is lost. -/
theorem perm_ofEntries {entries : List (κ × α)} (h : (entries.map Prod.fst).Nodup) :
    (ofEntries entries).Perm entries := by
  have hfold : ∀ map : List (κ × α), (map.map Prod.fst ++ entries.map Prod.fst).Nodup →
      (entries.foldl (fun map entry => insert entry.1 entry.2 map) map).Perm (map ++ entries) := by
    clear h
    induction entries with
    | nil =>
      intro map _
      rw [List.append_nil]
      exact .refl _
    | cons entry entries ih =>
      intro map hnodup
      rw [List.map_cons] at hnodup
      have hinsert : (insert entry.1 entry.2 map).Perm (entry :: map) := perm_insert fun hmem =>
        (List.nodup_append.mp hnodup).2.2 _ hmem _ List.mem_cons_self rfl
      have hmiddle := (hinsert.append_right entries).trans List.perm_middle.symm
      refine (ih _ ?_).trans hmiddle
      have hkeys := hmiddle.map Prod.fst
      rw [List.map_append, List.map_append, List.map_cons] at hkeys
      exact hkeys.nodup_iff.mpr hnodup
  exact hfold [] (by simpa using h)

/-- A lookup answers with the last entry of the key. -/
theorem lookup_ofEntries (entries : List (κ × α)) (key : κ) :
    (ofEntries entries).lookup key =
      (entries.filter fun entry => entry.1 = key).getLast?.map Prod.snd := by
  have hfold : ∀ map : List (κ × α),
      (entries.foldl (fun map entry => insert entry.1 entry.2 map) map).lookup key =
        ((entries.filter fun entry => entry.1 = key).getLast?.map Prod.snd).or (map.lookup key) := by
    induction entries with
    | nil => exact fun _ => rfl
    | cons entry entries ih =>
      intro map
      rw [List.foldl_cons, ih, lookup_insert]
      by_cases hkey : entry.1 = key
      · rw [List.filter_cons_of_pos (by simpa using hkey), List.getLast?_cons, if_pos hkey.symm]
        cases (entries.filter fun entry => entry.1 = key).getLast? <;> rfl
      · rw [List.filter_cons_of_neg (by simpa using hkey), if_neg (Ne.symm hkey)]
  rw [ofEntries, hfold]
  simp

theorem foldl_insert_of_sorted {map entries : List (κ × α)} (h : Sorted (map ++ entries)) :
    entries.foldl (fun map entry => insert entry.1 entry.2 map) map = map ++ entries := by
  induction entries generalizing map with
  | nil => rw [List.foldl_nil, List.append_nil]
  | cons entry rest ih =>
    have hlast : ∀ other ∈ map, other.1 < entry.1 := fun other hother =>
      (List.pairwise_append.mp h).2.2 other hother entry List.mem_cons_self
    rw [List.foldl_cons, insert_last hlast]
    have happend : map ++ entry :: rest = map ++ [entry] ++ rest := by simp
    rw [happend] at h ⊢
    exact ih h

theorem ofEntries_of_sorted {entries : List (κ × α)} (h : Sorted entries) :
    ofEntries entries = entries := @foldl_insert_of_sorted κ α _ [] entries h

/-- Collects a list into a map by name; the last of several equal names stays. -/
def collect (name : α → κ) (items : List α) : List (κ × α) :=
  items.foldl (fun entries item => insert (name item) item entries) []

theorem sorted_foldl_insert (name : α → κ) (items : List α) {entries : List (κ × α)}
    (h : Sorted entries) :
    Sorted (items.foldl (fun entries item => insert (name item) item entries) entries) := by
  induction items generalizing entries with
  | nil => exact h
  | cons item items ih => exact ih (sorted_insert (name item) item h)

theorem sorted_collect (name : α → κ) (items : List α) : Sorted (collect name items) :=
  sorted_foldl_insert name items .nil

theorem lookup_foldl_insert (name : α → κ) (items : List α) (entries : List (κ × α)) (key : κ) :
    (items.foldl (fun entries item => insert (name item) item entries) entries).lookup key =
      (items.filter fun item => name item = key).getLast?.or (entries.lookup key) := by
  induction items generalizing entries with
  | nil => rfl
  | cons item items ih =>
    rw [List.foldl_cons, ih, lookup_insert]
    by_cases hkey : name item = key
    · rw [List.filter_cons_of_pos (by simpa using hkey), List.getLast?_cons, if_pos hkey.symm]
      cases (items.filter fun item => name item = key).getLast? <;> rfl
    · rw [List.filter_cons_of_neg (by simpa using hkey), if_neg (Ne.symm hkey)]

/-- A lookup answers with the last item of the name. -/
theorem lookup_collect (name : α → κ) (items : List α) (key : κ) :
    (collect name items).lookup key = (items.filter fun item => name item = key).getLast? := by
  rw [collect, lookup_foldl_insert]
  simp

theorem mem_collect {name : α → κ} {items : List α} {entry : κ × α}
    (h : entry ∈ collect name items) : entry.2 ∈ items ∧ name entry.2 = entry.1 := by
  have hlookup := (sorted_collect name items).mem_iff.mp h
  rw [lookup_collect] at hlookup
  have hmem := List.mem_filter.mp (List.mem_of_getLast? hlookup)
  exact ⟨hmem.1, of_decide_eq_true hmem.2⟩

/-- The first item of a name. -/
def named (name : α → κ) (items : List α) (key : κ) : Option α :=
  items.find? fun item => decide (name item = key)

theorem name_of_named {name : α → κ} {items : List α} {key : κ} {item : α}
    (h : named name items key = some item) : name item = key := by
  have hfound := List.find?_some (p := fun item => decide (name item = key)) h
  exact of_decide_eq_true hfound

theorem named_eq_some_iff {name : α → κ} {items : List α} (h : (items.map name).Nodup) {key : κ}
    {item : α} : named name items key = some item ↔ item ∈ items ∧ name item = key := by
  constructor
  · intro hfound
    exact ⟨List.mem_of_find?_eq_some hfound, name_of_named hfound⟩
  · rintro ⟨hmem, rfl⟩
    cases hfound : named name items (name item) with
    | none => exact absurd (decide_eq_true rfl) (List.find?_eq_none.mp hfound item hmem)
    | some other =>
      rw [List.inj_on_of_nodup_map h (List.mem_of_find?_eq_some hfound) hmem
        (name_of_named hfound)]

/-- Where the names are distinct, the last item of a name is the first. -/
theorem lookup_collect_of_nodup {name : α → κ} {items : List α} (h : (items.map name).Nodup)
    (key : κ) : (collect name items).lookup key = named name items key := by
  rw [lookup_collect]
  cases hlast : (items.filter fun item => name item = key).getLast? with
  | none =>
    rw [List.getLast?_eq_none_iff, List.filter_eq_nil_iff] at hlast
    exact (List.find?_eq_none.mpr hlast).symm
  | some item =>
    have hmem := List.mem_filter.mp (List.mem_of_getLast? hlast)
    exact ((named_eq_some_iff h).mpr ⟨hmem.1, of_decide_eq_true hmem.2⟩).symm

/-- Lists of distinct names that answer every name alike are reorderings of one another. -/
theorem perm_of_named_eq {name : α → κ} {items others : List α} (h : (items.map name).Nodup)
    (h' : (others.map name).Nodup) (hnamed : ∀ key, named name items key = named name others key) :
    items.Perm others := by
  rw [List.perm_ext_iff_of_nodup (List.Nodup.of_map name h) (List.Nodup.of_map name h')]
  intro item
  have hitem : named name items (name item) = some item ↔ item ∈ items ∧ name item = name item :=
    named_eq_some_iff h
  rw [hnamed, named_eq_some_iff h'] at hitem
  simpa using hitem.symm

theorem collect_eq_of_filter_eq {name : α → κ} {items others : List α}
    (h : ∀ key, (items.filter fun item => name item = key) =
      others.filter fun item => name item = key) : collect name items = collect name others := by
  refine (sorted_collect name items).ext (sorted_collect name others) fun key => ?_
  rw [lookup_collect, lookup_collect, h]

/-- The map with a function applied to each value. -/
def mapValues {β : Type} (f : α → β) (entries : List (κ × α)) : List (κ × β) :=
  entries.map fun entry => (entry.1, f entry.2)

section MapValues
variable {β : Type} (f : α → β)

theorem lookup_mapValues (entries : List (κ × α)) (key : κ) :
    (mapValues f entries).lookup key = (entries.lookup key).map f := by
  induction entries with
  | nil => rfl
  | cons entry entries ih =>
    obtain ⟨head, first⟩ := entry
    have hcons : mapValues f ((head, first) :: entries) = (head, f first) :: mapValues f entries :=
      rfl
    rw [hcons, lookup_cons, lookup_cons, ih]
    by_cases hkey : key = head
    · rw [if_pos hkey, if_pos hkey, Option.map_some]
    · rw [if_neg hkey, if_neg hkey]

theorem mapValues_insert (key : κ) (value : α) (entries : List (κ × α)) :
    mapValues f (insert key value entries) = insert key (f value) (mapValues f entries) := by
  induction entries with
  | nil => rfl
  | cons entry entries ih =>
    obtain ⟨head, first⟩ := entry
    have hcons : mapValues f ((head, first) :: entries) = (head, f first) :: mapValues f entries :=
      rfl
    rw [insert, hcons, insert]
    split_ifs
    · rfl
    · rfl
    · rw [← ih]
      rfl

theorem mapValues_ofEntries (entries : List (κ × α)) :
    mapValues f (ofEntries entries) = ofEntries (mapValues f entries) := by
  have hfold : ∀ map : List (κ × α),
      mapValues f (entries.foldl (fun map entry => insert entry.1 entry.2 map) map) =
        (mapValues f entries).foldl (fun map entry => insert entry.1 entry.2 map) (mapValues f map) := by
    induction entries with
    | nil => exact fun _ => rfl
    | cons entry entries ih =>
      intro map
      rw [List.foldl_cons, ih, mapValues_insert]
      rfl
  exact hfold []

variable {f}

theorem Sorted.mapValues {entries : List (κ × α)} (h : Sorted entries) :
    Sorted (mapValues f entries) :=
  List.pairwise_map.mpr h

/-- Maps whose lookups agree on the image of each value agree on it entry by entry. -/
theorem Sorted.mapValues_eq {entries others : List (κ × α)} (h : Sorted entries)
    (h' : Sorted others)
    (hlookup : ∀ key, (entries.lookup key).map f = (others.lookup key).map f) :
    OrderedMap.mapValues f entries = OrderedMap.mapValues f others := by
  refine h.mapValues.ext h'.mapValues fun key => ?_
  rw [lookup_mapValues, lookup_mapValues, hlookup]

end MapValues

/-! ## The keys of two maps -/

/-- The keys of the first map, then those that only the second one has. -/
def unionKeys (before after : List (κ × α)) : List κ :=
  before.map Prod.fst ++ (after.map Prod.fst).filter fun key => (before.lookup key).isNone

theorem Sorted.nodup_keys {entries : List (κ × α)} (h : Sorted entries) :
    (entries.map Prod.fst).Nodup :=
  List.pairwise_map.mpr (h.imp fun hlt => ne_of_lt hlt)

theorem Sorted.mem_keys {entries : List (κ × α)} (h : Sorted entries) {key : κ} :
    key ∈ entries.map Prod.fst ↔ (entries.lookup key).isSome = true := by
  rw [List.mem_map, Option.isSome_iff_exists]
  constructor
  · rintro ⟨entry, he, rfl⟩
    exact ⟨entry.2, h.mem_iff.mp he⟩
  · rintro ⟨value, hvalue⟩
    exact ⟨(key, value), h.mem_iff.mpr hvalue, rfl⟩

theorem mem_chainedKeys {before after : List (κ × α)} (hbefore : Sorted before)
    (hafter : Sorted after) {key : κ} : key ∈ before.map Prod.fst ++ after.map Prod.fst ↔
      (before.lookup key).isSome = true ∨ (after.lookup key).isSome = true := by
  rw [List.mem_append, hbefore.mem_keys, hafter.mem_keys]

theorem nodup_unionKeys {before after : List (κ × α)} (hbefore : Sorted before)
    (hafter : Sorted after) : (unionKeys before after).Nodup := by
  refine List.nodup_append.mpr ⟨hbefore.nodup_keys, hafter.nodup_keys.filter _, ?_⟩
  rintro key hkey other hother rfl
  have hnone := (List.mem_filter.mp hother).2
  rw [hbefore.mem_keys] at hkey
  rw [Option.isNone_iff_eq_none.mp hnone] at hkey
  cases hkey

theorem mem_unionKeys {before after : List (κ × α)} (hbefore : Sorted before)
    (hafter : Sorted after) {key : κ} : key ∈ unionKeys before after ↔
      (before.lookup key).isSome = true ∨ (after.lookup key).isSome = true := by
  rw [unionKeys, List.mem_append, List.mem_filter, hbefore.mem_keys, hafter.mem_keys]
  cases before.lookup key <;> simp

end OrderedMap

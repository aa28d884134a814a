import Postgresem.Foundation.Text

/-! Statement templates: fixed text, quoted identifiers and value holes. Assembling a template
numbers the holes in order of first occurrence and leaves the values in a separate pool. -/
namespace Template

/-- An identifier or a constant is always led in by some fixed text, so that two quoted tokens
are never adjacent. -/
inductive Piece (π : Type) where
  | raw (text : String)
  | name (lead identifier : String)
  | constant (lead text : String)
  | hole (value : π)
  deriving DecidableEq

variable {π π' : Type} [DecidableEq π] [DecidableEq π']

/-- The position of a value in the pool, which grows only by values it does not hold. -/
def allocate (pool : List π) (value : π) : Nat × List π :=
  if value ∈ pool then (pool.idxOf value + 1, pool) else (pool.length + 1, pool ++ [value])

theorem allocate_cons_of_mem {pool : List π} {first value : π} (h : first ≠ value)
    (hm : value ∈ pool) : (allocate (first :: pool) value).1 = (allocate pool value).1 + 1 := by
  simp only [allocate, List.mem_cons, hm, or_true, if_true, List.idxOf_cons_ne _ h]

def quoted (identifier : String) : String :=
  "\"" ++ Text.replaceChar '"' "\"\"" identifier ++ "\""

def Piece.emit (pool : List π) : Piece π → String × List π
  | .raw text => (text, pool)
  | .name lead identifier => (lead ++ quoted identifier, pool)
  | .constant lead text => (lead ++ "'" ++ text ++ "'", pool)
  | .hole value => ("$" ++ toString (allocate pool value).1, (allocate pool value).2)

def assemble : List (Piece π) → List π → String × List π
  | [], pool => ("", pool)
  | piece :: rest, pool =>
    let first := piece.emit pool
    let others := assemble rest first.2
    (first.1 ++ others.1, others.2)

/-- The texts of several templates that draw on one pool in turn. -/
def assembleEach : List (List (Piece π)) → List π → List String × List π
  | [], pool => ([], pool)
  | template :: rest, pool =>
    let first := assemble template pool
    let others := assembleEach rest first.2
    (first.1 :: others.1, others.2)

def joinWith (separator : String) : List (List (Piece π)) → List (Piece π)
  | [] => []
  | [template] => template
  | template :: next :: rest => template ++ .raw separator :: joinWith separator (next :: rest)

@[simp] theorem assemble_nil (pool : List π) : assemble [] pool = ("", pool) := rfl

@[simp] theorem assemble_raw (text : String) (rest : List (Piece π)) (pool : List π) :
    assemble (.raw text :: rest) pool =
      (text ++ (assemble rest pool).1, (assemble rest pool).2) := rfl

@[simp] theorem assemble_name (lead identifier : String) (rest : List (Piece π)) (pool : List π) :
    assemble (.name lead identifier :: rest) pool =
      (lead ++ quoted identifier ++ (assemble rest pool).1, (assemble rest pool).2) := rfl

@[simp] theorem assemble_constant (lead text : String) (rest : List (Piece π)) (pool : List π) :
    assemble (.constant lead text :: rest) pool =
      (lead ++ "'" ++ text ++ "'" ++ (assemble rest pool).1, (assemble rest pool).2) := rfl

@[simp] theorem assemble_hole (value : π) (rest : List (Piece π)) (pool : List π) :
    assemble (.hole value :: rest) pool =
      ("$" ++ toString (allocate pool value).1 ++ (assemble rest (allocate pool value).2).1,
        (assemble rest (allocate pool value).2).2) := rfl

@[simp] theorem assemble_append (xs ys : List (Piece π)) (pool : List π) :
    assemble (xs ++ ys) pool =
      ((assemble xs pool).1 ++ (assemble ys (assemble xs pool).2).1,
        (assemble ys (assemble xs pool).2).2) := by
  induction xs generalizing pool with
  | nil => simp
  | cons x xs ih =>
    simp only [List.cons_append, assemble, ih, String.append_assoc]

theorem assemble_joinWith (separator : String) (templates : List (List (Piece π)))
    (pool : List π) :
    assemble (joinWith separator templates) pool =
      (separator.intercalate (assembleEach templates pool).1,
        (assembleEach templates pool).2) := by
  induction templates generalizing pool with
  | nil => simp [joinWith, assembleEach]
  | cons template rest ih =>
    cases rest with
    | nil => simp [joinWith, assembleEach]
    | cons next rest =>
      have ih' := ih (assemble template pool).2
      simp only [assembleEach] at ih'
      simp only [joinWith, assembleEach, assemble_append, assemble_raw, ih',
        String.intercalate_cons_cons, String.append_assoc]

theorem assemble_flatten (templates : List (List (Piece π))) (pool : List π) :
    assemble templates.flatten pool =
      (String.join (assembleEach templates pool).1, (assembleEach templates pool).2) := by
  induction templates generalizing pool with
  | nil => simp [assembleEach]
  | cons template rest ih =>
    simp only [List.flatten_cons, assemble_append, assembleEach, ih, String.join_cons]

theorem assembleEach_append (xs ys : List (List (Piece π))) (pool : List π) :
    assembleEach (xs ++ ys) pool =
      ((assembleEach xs pool).1 ++ (assembleEach ys (assembleEach xs pool).2).1,
        (assembleEach ys (assembleEach xs pool).2).2) := by
  induction xs generalizing pool with
  | nil => rfl
  | cons x xs ih => simp only [List.cons_append, assembleEach, ih]

/-! ## The identifiers of a template -/

def names : List (Piece π) → List String
  | [] => []
  | .name _ identifier :: rest => identifier :: names rest
  | .raw _ :: rest | .constant _ _ :: rest | .hole _ :: rest => names rest

section Names
omit [DecidableEq π]

@[simp] theorem names_nil : names ([] : List (Piece π)) = [] := rfl

@[simp] theorem names_raw (text : String) (rest : List (Piece π)) :
    names (.raw text :: rest) = names rest := rfl

@[simp] theorem names_name (lead identifier : String) (rest : List (Piece π)) :
    names (.name lead identifier :: rest) = identifier :: names rest := rfl

@[simp] theorem names_constant (lead text : String) (rest : List (Piece π)) :
    names (.constant lead text :: rest) = names rest := rfl

@[simp] theorem names_hole (value : π) (rest : List (Piece π)) :
    names (.hole value :: rest) = names rest := rfl

@[simp] theorem names_append (xs ys : List (Piece π)) : names (xs ++ ys) = names xs ++ names ys := by
  induction xs with
  | nil => rfl
  | cons p ps ih => cases p <;> simp [ih]

theorem names_joinWith (separator : String) (templates : List (List (Piece π))) :
    names (joinWith separator templates) = templates.flatMap names := by
  induction templates with
  | nil => rfl
  | cons template rest ih =>
    cases rest with
    | nil => simp [joinWith]
    | cons next rest => simp only [joinWith, names_append, names_raw, ih, List.flatMap_cons]

theorem names_flatten (templates : List (List (Piece π))) :
    names templates.flatten = templates.flatMap names := by
  induction templates with
  | nil => rfl
  | cons template rest ih => rw [List.flatten_cons, names_append, ih, List.flatMap_cons]

end Names

/-! ## Substitution in an assembled text -/

/-- A character substitution, run over the fixed texts and the identifiers alike. -/
def Piece.substitute (pattern : Char) (replacement : String) : Piece π → Piece π
  | .raw text => .raw (Text.replaceChar pattern replacement text)
  | .name lead identifier =>
    .name (Text.replaceChar pattern replacement lead)
      (Text.replaceChar pattern replacement identifier)
  | .constant lead text =>
    .constant (Text.replaceChar pattern replacement lead)
      (Text.replaceChar pattern replacement text)
  | .hole value => .hole value

omit [DecidableEq π] in
theorem names_substitute (pattern : Char) (replacement : String) (template : List (Piece π)) :
    names (template.map (Piece.substitute pattern replacement)) =
      (names template).map (Text.replaceChar pattern replacement) := by
  induction template with
  | nil => rfl
  | cons p ps ih => cases p <;> simp [Piece.substitute, ih]

theorem replaceChar_quoted {pattern : Char} {replacement : String} (hp : pattern ≠ '"')
    (hr : '"' ∉ replacement.toList) (identifier : String) :
    Text.replaceChar pattern replacement (quoted identifier) =
      quoted (Text.replaceChar pattern replacement identifier) := by
  have hquote : Text.replaceChar pattern replacement "\"" = "\"" := by
    apply Text.replaceChar_of_notMem
    simpa using hp
  have hdouble : "\"\"".toList = ['"', '"'] := by decide
  have hcommute : Text.replaceChar pattern replacement (Text.replaceChar '"' "\"\"" identifier) =
      Text.replaceChar '"' "\"\"" (Text.replaceChar pattern replacement identifier) := by
    apply String.toList_injective
    simp only [Text.toList_replaceChar, List.flatMap_assoc, hdouble]
    apply List.flatMap_congr
    intro c _
    -- a quote is not the pattern, and the replacement holds no quote
    by_cases hc : c = '"'
    · subst hc
      simp [Ne.symm hp]
    · by_cases hcp : c = pattern
      · subst hcp
        simp [hc, Text.flatMap_replace_of_notMem hr]
      · simp [hc, hcp]
  unfold quoted
  rw [Text.replaceChar_append, Text.replaceChar_append, hquote, hcommute]

/-- Substituting in the assembled text is substituting in the template, when the pattern is
neither a quote nor a character of a placeholder. -/
theorem replaceChar_assemble {pattern : Char} {replacement : String}
    (hp : pattern ∉ ['"', '\'', '$']) (hdigit : pattern.isDigit = false)
    (hr : '"' ∉ replacement.toList) (template : List (Piece π)) (pool : List π) :
    assemble (template.map (Piece.substitute pattern replacement)) pool =
      (Text.replaceChar pattern replacement (assemble template pool).1,
        (assemble template pool).2) := by
  simp only [List.mem_cons, List.not_mem_nil, or_false, not_or] at hp
  induction template generalizing pool with
  | nil => simp [Text.replaceChar]
  | cons p ps ih =>
    cases p with
    | raw text => simp [Piece.substitute, ih]
    | name lead identifier =>
      simp [Piece.substitute, ih, replaceChar_quoted hp.1 hr]
    | constant lead text =>
      have hquote : Text.replaceChar pattern replacement "'" = "'" := by
        apply Text.replaceChar_of_notMem
        simpa using hp.2.1
      simp [Piece.substitute, ih, hquote]
    | hole value =>
      have hdollar : Text.replaceChar pattern replacement "$" = "$" := by
        apply Text.replaceChar_of_notMem
        simpa using hp.2.2
      have hnumber : Text.replaceChar pattern replacement
          (toString (allocate pool value).1) = toString (allocate pool value).1 :=
        Text.replaceChar_of_notMem (Text.notMem_toString hdigit _)
      simp only [List.map_cons, Piece.substitute, assemble_hole, ih, Text.replaceChar_append,
        hdollar, hnumber]

/-! ## Holes only show through their equality pattern -/

def Piece.map (f : π → π') : Piece π → Piece π'
  | .raw text => .raw text
  | .name lead identifier => .name lead identifier
  | .constant lead text => .constant lead text
  | .hole value => .hole (f value)

/-- The values of the holes in the order they are pushed. -/
def holes : List (Piece π) → List π
  | [] => []
  | .hole value :: rest => value :: holes rest
  | .raw _ :: rest | .name _ _ :: rest | .constant _ _ :: rest => holes rest

section Holes
omit [DecidableEq π] [DecidableEq π']

@[simp] theorem holes_nil : holes ([] : List (Piece π)) = [] := rfl

@[simp] theorem holes_raw (text : String) (rest : List (Piece π)) :
    holes (.raw text :: rest) = holes rest := rfl

@[simp] theorem holes_name (lead identifier : String) (rest : List (Piece π)) :
    holes (.name lead identifier :: rest) = holes rest := rfl

@[simp] theorem holes_constant (lead text : String) (rest : List (Piece π)) :
    holes (.constant lead text :: rest) = holes rest := rfl

@[simp] theorem holes_hole (value : π) (rest : List (Piece π)) :
    holes (.hole value :: rest) = value :: holes rest := rfl

@[simp] theorem holes_append (xs ys : List (Piece π)) : holes (xs ++ ys) = holes xs ++ holes ys := by
  induction xs with
  | nil => rfl
  | cons p ps ih => cases p <;> simp [ih]

theorem holes_joinWith (separator : String) (templates : List (List (Piece π))) :
    holes (joinWith separator templates) = templates.flatMap holes := by
  induction templates with
  | nil => rfl
  | cons template rest ih =>
    cases rest with
    | nil => simp [joinWith]
    | cons next rest => simp only [joinWith, holes_append, holes_raw, ih, List.flatMap_cons]

theorem holes_flatten (templates : List (List (Piece π))) :
    holes templates.flatten = templates.flatMap holes := by
  induction templates with
  | nil => rfl
  | cons template rest ih => rw [List.flatten_cons, holes_append, ih, List.flatMap_cons]

theorem holes_substitute (pattern : Char) (replacement : String) (template : List (Piece π)) :
    holes (template.map (Piece.substitute pattern replacement)) = holes template := by
  induction template with
  | nil => rfl
  | cons p ps ih => cases p <;> simp [Piece.substitute, ih]

theorem holes_map (f : π → π') (template : List (Piece π)) :
    holes (template.map (Piece.map f)) = (holes template).map f := by
  induction template with
  | nil => rfl
  | cons p ps ih => cases p <;> simp [Piece.map, ih]

end Holes

theorem allocate_subset (pool : List π) (value : π) :
    ∀ x, x ∈ (allocate pool value).2 ↔ x = value ∨ x ∈ pool := by
  intro x
  unfold allocate
  split
  next h =>
    constructor
    · exact Or.inr
    · rintro (rfl | hx)
      · exact h
      · exact hx
  next => simp only [List.mem_append, List.mem_singleton]; tauto

theorem idxOf_map_of_injOn {f : π → π'} {pool : List π} {value : π} (hv : value ∈ pool)
    (hf : ∀ x ∈ pool, f x = f value → x = value) :
    (pool.map f).idxOf (f value) = pool.idxOf value := by
  induction pool with
  | nil => cases hv
  | cons x pool ih =>
    by_cases hx : x = value
    · simp [hx]
    · have hfx : f x ≠ f value := fun h => hx (hf x (by simp) h)
      have hm : value ∈ pool := by simpa [Ne.symm hx] using hv
      rw [List.map_cons, List.idxOf_cons_ne _ hfx, List.idxOf_cons_ne _ hx,
        ih hm fun y hy => hf y (by simp [hy])]

theorem allocate_map {f : π → π'} {pool : List π} {value : π}
    (hf : ∀ x ∈ pool, f x = f value → x = value) :
    allocate (pool.map f) (f value) = ((allocate pool value).1, (allocate pool value).2.map f) := by
  have hmem : f value ∈ pool.map f ↔ value ∈ pool := by
    constructor
    · intro h
      obtain ⟨x, hx, he⟩ := List.mem_map.mp h
      rwa [hf x hx he] at hx
    · exact List.mem_map_of_mem
  by_cases hv : value ∈ pool
  · simp only [allocate, hmem, hv, if_true, idxOf_map_of_injOn hv hf]
  · simp [allocate, hmem, hv]

/-- Renaming the values without identifying any two of them leaves the text as it is. -/
theorem assemble_map {f : π → π'} {template : List (Piece π)} {pool : List π}
    (hf : ∀ x ∈ pool ++ holes template, ∀ y ∈ pool ++ holes template, f x = f y → x = y) :
    assemble (template.map (Piece.map f)) (pool.map f) =
      ((assemble template pool).1, (assemble template pool).2.map f) := by
  induction template generalizing pool with
  | nil => rfl
  | cons p ps ih =>
    cases p with
    | raw text =>
      have h := ih hf
      simp only [List.map_cons, Piece.map, assemble_raw, h]
    | name lead identifier =>
      have h := ih hf
      simp only [List.map_cons, Piece.map, assemble_name, h]
    | constant lead text =>
      have h := ih hf
      simp only [List.map_cons, Piece.map, assemble_constant, h]
    | hole value =>
      rw [holes_hole] at hf
      have ha : allocate (pool.map f) (f value) =
          ((allocate pool value).1, (allocate pool value).2.map f) :=
        allocate_map fun x hx => hf x (by simp [hx]) value (by simp)
      have hpool : ∀ x ∈ (allocate pool value).2 ++ holes ps,
          ∀ y ∈ (allocate pool value).2 ++ holes ps, f x = f y → x = y := by
        intro x hx y hy
        simp only [List.mem_append, allocate_subset] at hx hy
        exact hf x (by simp only [List.mem_append, List.mem_cons]; tauto)
          y (by simp only [List.mem_append, List.mem_cons]; tauto)
      have h := ih hpool
      simp only [List.map_cons, Piece.map, assemble_hole, ha, h]

/-- The pool is filled by the holes alone, in the order they stand. -/
theorem assemble_pool (template : List (Piece π)) (pool : List π) :
    (assemble template pool).2 =
      (holes template).foldl (fun pool value => (allocate pool value).2) pool := by
  induction template generalizing pool with
  | nil => rfl
  | cons p ps ih => cases p <;> simp [ih]

/-- The pool holds each value of the holes once. -/
theorem assemble_pool_spec (template : List (Piece π)) {pool : List π} (h : pool.Nodup) :
    (assemble template pool).2.Nodup ∧
      ∀ value, value ∈ (assemble template pool).2 ↔ value ∈ holes template ∨ value ∈ pool := by
  rw [assemble_pool]
  induction holes template generalizing pool with
  | nil => exact ⟨h, by simp⟩
  | cons first rest ih =>
    have hallocated : (allocate pool first).2.Nodup := by
      unfold allocate
      split
      · exact h
      next hmem =>
        refine List.nodup_append.mpr ⟨h, by simp, ?_⟩
        rintro value hv other ho rfl
        exact hmem (List.mem_singleton.mp ho ▸ hv)
    obtain ⟨hnodup, hmem⟩ := ih hallocated
    refine ⟨hnodup, fun value => ?_⟩
    rw [List.foldl_cons, hmem, allocate_subset, List.mem_cons]
    tauto

/-- Two value sequences are equal at the same pairs of positions. -/
def SamePattern (xs : List π) (ys : List π') : Prop :=
  ∀ i j, i < xs.length → j < xs.length → (xs[i]? = xs[j]? ↔ ys[i]? = ys[j]?)

def Piece.zip : Piece π → Piece π' → Piece (π × π')
  | .hole x, .hole y => .hole (x, y)
  | .raw text, _ => .raw text
  | .name lead identifier, _ => .name lead identifier
  | .constant lead text, _ => .constant lead text
  | .hole _, _ => .raw ""

/-- What is left of a template when the values are taken out. -/
def shape (template : List (Piece π)) : List (Piece Unit) := template.map (Piece.map fun _ => ())

omit [DecidableEq π] [DecidableEq π'] in
theorem shape_map (f : π → π') (template : List (Piece π)) :
    shape (template.map (Piece.map f)) = shape template := by
  unfold shape
  rw [List.map_map]
  apply List.map_congr_left
  intro piece _
  cases piece <;> rfl

omit [DecidableEq π] [DecidableEq π'] in
theorem zip_spec {xs : List (Piece π)} {ys : List (Piece π')} (h : shape xs = shape ys) :
    (List.zipWith Piece.zip xs ys).map (Piece.map Prod.fst) = xs ∧
      (List.zipWith Piece.zip xs ys).map (Piece.map Prod.snd) = ys ∧
      holes (List.zipWith Piece.zip xs ys) = (holes xs).zip (holes ys) := by
  induction xs generalizing ys with
  | nil => cases ys <;> simp_all [shape]
  | cons x xs ih =>
    cases ys with
    | nil => simp [shape] at h
    | cons y ys =>
      simp only [shape, List.map_cons, List.cons.injEq] at h
      obtain ⟨h1, h2, h3⟩ := ih h.2
      have hxy := h.1
      -- the heads are pieces of one kind, with equal fixed text
      cases x <;> cases y <;> simp only [Piece.map, reduceCtorEq, Piece.raw.injEq,
        Piece.name.injEq, Piece.constant.injEq] at hxy <;>
        simp [Piece.zip, Piece.map, h1, h2, h3, hxy]

omit [DecidableEq π] [DecidableEq π'] in
theorem holes_length_of_shape {xs : List (Piece π)} {ys : List (Piece π')}
    (h : shape xs = shape ys) : (holes xs).length = (holes ys).length := by
  have hl := congrArg (fun t => (holes t).length) h
  simpa [shape, holes_map] using hl

omit [DecidableEq π] [DecidableEq π'] in
/-- Under a common equality pattern either value of a pair determines the other. -/
theorem zip_functional {xs : List π} {ys : List π'} (hl : xs.length = ys.length)
    (h : SamePattern xs ys) : ∀ p ∈ xs.zip ys, ∀ q ∈ xs.zip ys, p.1 = q.1 ↔ p.2 = q.2 := by
  intro p hp q hq
  obtain ⟨i, hi, rfl⟩ := List.mem_iff_getElem.mp hp
  obtain ⟨j, hj, rfl⟩ := List.mem_iff_getElem.mp hq
  simp only [List.length_zip, hl, min_self] at hi hj
  have hij := h i j (by omega) (by omega)
  rw [List.getElem?_eq_getElem (by omega), List.getElem?_eq_getElem (by omega),
    List.getElem?_eq_getElem hi, List.getElem?_eq_getElem hj] at hij
  simpa [List.getElem_zip] using hij

/-- Templates of one shape whose values have one equality pattern assemble to one text. -/
theorem assemble_eq_of_samePattern {xs : List (Piece π)} {ys : List (Piece π')}
    (hshape : shape xs = shape ys) (h : SamePattern (holes xs) (holes ys)) :
    (assemble xs []).1 = (assemble ys []).1 := by
  let zs := List.zipWith Piece.zip xs ys
  obtain ⟨h1, h2, h3⟩ := zip_spec hshape
  have hfun := zip_functional (holes_length_of_shape hshape) h
  have hfst : assemble (zs.map (Piece.map Prod.fst)) (([] : List (π × π')).map Prod.fst) =
      ((assemble zs []).1, (assemble zs []).2.map Prod.fst) := by
    apply assemble_map
    intro p hp q hq he
    simp only [List.nil_append, zs, h3] at hp hq
    exact Prod.ext he ((hfun p hp q hq).mp he)
  have hsnd : assemble (zs.map (Piece.map Prod.snd)) (([] : List (π × π')).map Prod.snd) =
      ((assemble zs []).1, (assemble zs []).2.map Prod.snd) := by
    apply assemble_map
    intro p hp q hq he
    simp only [List.nil_append, zs, h3] at hp hq
    exact Prod.ext ((hfun p hp q hq).mpr he) he
  simp only [zs, h1, List.map_nil] at hfst
  simp only [zs, h2, List.map_nil] at hsnd
  rw [hfst, hsnd]

end Template

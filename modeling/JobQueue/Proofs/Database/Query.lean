/-
What a fetch of rows asks its database.

A fetch of rows ends in an error before it asks its database for them, or it hands over one query: a
text, and values beside it (`Database.queryFor`). The text depends on the names and on what is null
only, and all names between its quotes are plain words. No value can change the text, and none is
read as a part of it (`Database.fetch_asks`).
-/

import JobQueue.Proofs.Database.QueryText
import JobQueue.Proofs.Export.Stores
import JobQueue.Proofs.Json.Fields

namespace JobQueue

/-! ### Values -/

namespace Json

/-- Whether a value is null. -/
def isNull : Json → Bool
  | .null => true
  | _ => false

/-- Whether a value is neither a list nor an object. -/
def IsScalar : Json → Prop
  | .arr _ | .obj _ => False
  | _ => True

end Json

namespace Database

/-! ### Conditions from filters -/

theorem Cell.isSome_ofJson? {v : Json} : (ofJson? v).isSome = true ↔ v.IsScalar := by
  cases v <;> simp [ofJson?, Json.IsScalar]

theorem Cell.any_isNull_ofJson? (v : Json) : (ofJson? v).any isNull = v.isNull := by
  cases v with
  | null | bool | double | str | arr | obj => rfl
  | int n =>
      rw [ofJson?, Option.any_some]
      split <;> rfl

theorem Condition.ofFilter_eq_ok {name : String} {v : Json} {c : Condition} :
    ofFilter name v = .ok c ↔
      isWord name = true ∧ c.name = name ∧ Cell.ofJson? v = some c.wanted := by
  obtain ⟨named, wanted⟩ := c
  rw [ofFilter]
  cases isWord name with
  | false => simp
  | true => cases Cell.ofJson? v <;> simp [eq_comm]

/-- The conditions of some filters, each with the name and the value of its own filter. -/
theorem mapM_ofFilter_eq_ok {filters : Row} {conditions : List Condition} :
    (filters.mapM fun (name, value) => Condition.ofFilter name value) = .ok conditions ↔
      (∀ f ∈ filters, isWord f.1 = true) ∧
        conditions.map (fun c => (c.name, some c.wanted)) =
          filters.map fun f => (f.1, Cell.ofJson? f.2) := by
  induction filters generalizing conditions with
  | nil => cases conditions <;> simp [pure, Except.pure]
  | cons f filters ih =>
      rw [List.mapM_cons, bind_eq_ok]
      simp only [Condition.ofFilter_eq_ok, bind_eq_ok, ih, List.forall_mem_cons, List.map_cons]
      cases conditions with
      | nil => simp [pure, Except.pure]
      | cons c conditions =>
          simp only [pure, Except.pure, Except.ok.injEq, List.cons.injEq, List.map_cons,
            Prod.mk.injEq]
          constructor
          · rintro ⟨_, ⟨word, named, wanted⟩, _, ⟨words, others⟩, rfl, rfl⟩
            exact ⟨⟨word, words⟩, ⟨named, wanted.symm⟩, others⟩
          · rintro ⟨⟨word, words⟩, ⟨named, wanted⟩, others⟩
            exact ⟨c, ⟨word, named, wanted.symm⟩, conditions, ⟨words, others⟩, rfl, rfl⟩

/-- Some filters have conditions if and only if all their names are words and all their values
scalars. -/
theorem exists_mapM_ofFilter {filters : Row} :
    (∃ conditions, (filters.mapM fun (name, value) => Condition.ofFilter name value) =
        .ok conditions) ↔ ∀ f ∈ filters, isWord f.1 = true ∧ f.2.IsScalar := by
  induction filters with
  | nil => simp [pure, Except.pure]
  | cons f filters ih =>
      obtain ⟨name, v⟩ := f
      rw [List.forall_mem_cons, ← ih]
      simp only [List.mapM_cons, bind_eq_ok, Condition.ofFilter_eq_ok]
      constructor
      · rintro ⟨_, c, ⟨word, -, wanted⟩, others, made, -⟩
        exact ⟨⟨word, Cell.isSome_ofJson?.mp (Option.isSome_of_eq_some wanted)⟩, others, made⟩
      · rintro ⟨⟨word, scalar⟩, others, made⟩
        obtain ⟨wanted, known⟩ := Option.isSome_iff_exists.mp (Cell.isSome_ofJson?.mpr scalar)
        exact ⟨_, ⟨name, wanted⟩, ⟨word, rfl, known⟩, others, made, rfl⟩

/-! ### A fetch -/

/-- The rows that a database finds for a query. -/
def Query.rows? (q : Query) (db : Database) : Option (List Row) := do
  let s ← q.selection?
  let t ← db.table? s.source
  some ((s.lines t).map t.toFields)

/-- What a database answers to a query. -/
def Query.answer (q : Query) (db : Database) : Except StoreError (List Row) :=
  match q.rows? db with
  | some rows => .ok rows
  | none => .error (Table.refusal "the query cannot be read, or its table is missing")

/-- The query that a fetch asks its database, or the error that it ends in before. -/
def queryFor (source : String) (filters : Row) (db : Database) : Except StoreError Query :=
  if isWord source then
    if db.isOpen then
      if (db.table? source).isSome then
        (Selection.ofFilters source filters).map Selection.query
      else .error (.notFound source)
    else .error closedError
  else .error (.database s!"invalid export source name: {Text.quoted source}")

variable {source : String} {filters : Row} {db : Database} {q : Query}

theorem ofFilters_eq_ok {s : Selection} : Selection.ofFilters source filters = .ok s ↔
    s.source = source ∧ (∀ f ∈ filters, isWord f.1 = true) ∧
      s.conditions.map (fun c => (c.name, some c.wanted)) =
        filters.map fun f => (f.1, Cell.ofJson? f.2) := by
  obtain ⟨source', conditions⟩ := s
  rw [Selection.ofFilters, bind_eq_ok]
  simp only [mapM_ofFilter_eq_ok, Except.ok.injEq, Selection.mk.injEq]
  constructor
  · rintro ⟨_, made, rfl, rfl⟩
    exact ⟨rfl, made⟩
  · rintro ⟨rfl, made⟩
    exact ⟨conditions, made, rfl, rfl⟩

theorem queryFor_eq_ok : queryFor source filters db = .ok q ↔
    isWord source = true ∧ db.isOpen = true ∧ (db.table? source).isSome = true ∧
      ∃ s, Selection.ofFilters source filters = .ok s ∧ s.query = q := by
  rw [queryFor]
  cases isWord source <;> cases db.isOpen <;> cases (db.table? source).isSome <;>
    cases Selection.ofFilters source filters <;> simp [Except.map]

/-- Names that are words have no quotes in them, so that a query is read as it is meant. -/
theorem selection?_of_ofFilters {s : Selection} (word : isWord source = true)
    (made : Selection.ofFilters source filters = .ok s) : s.query.selection? = some s := by
  obtain ⟨rfl, words, same⟩ := ofFilters_eq_ok.mp made
  refine s.selection?_query (quote_notMem_of_isWord word) fun c kept => ?_
  have member := List.mem_map_of_mem (f := fun c : Condition => (c.name, some c.wanted)) kept
  rw [same] at member
  obtain ⟨f, asked, pair⟩ := List.mem_map.mp member
  have named : c.name = f.1 := (congrArg Prod.fst pair).symm
  exact named ▸ quote_notMem_of_isWord (words f asked)

/-- A fetch asks its database one query, or ends in an error before. -/
theorem fetchRows_eq_queryFor : fetchRows source filters db =
    (queryFor source filters db >>= fun q => q.answer db, db) := by
  rw [fetchRows, queryFor]
  split
  next word =>
    rw [read]
    split
    next =>
      rw [rowsOf]
      cases found : db.table? source with
      | none => rfl
      | some t =>
          cases made : Selection.ofFilters source filters with
          | error e => rfl
          | ok s =>
              have same : s.source = source := (ofFilters_eq_ok.mp made).1
              have answered : s.query.answer db = .ok ((s.lines t).map t.toFields) := by
                simp [Query.answer, Query.rows?, selection?_of_ofFilters word made, same, found]
              exact congrArg (·, db) answered.symm
    next => rfl
  next => rfl

/-- A query stands for some filters on a table: what its text depends on, what it holds between
quotes, and what is handed over beside it. -/
structure Query.Carries (q : Query) (source : String) (filters : Row) : Prop where
  text : q.text = askedText source (filters.map fun f => (f.1, f.2.isNull))
  names : names? q.text = some (source :: filters.map Prod.fst)
  plain : ∀ name ∈ source :: filters.map Prod.fst, IsPlainWord name
  /-- Each value that is not null is handed over once, in the order of the names. -/
  values : q.values.map some =
    ((filters.map Prod.snd).filter fun v => !v.isNull).map Cell.ofJson?
  /-- Each value belongs to its own name. -/
  meant : ∃ conditions, q.selection? = some ⟨source, conditions⟩ ∧
    conditions.map (fun c => (c.name, some c.wanted)) =
      filters.map fun f => (f.1, Cell.ofJson? f.2)

theorem asked_of_ofFilters {s : Selection} (made : Selection.ofFilters source filters = .ok s) :
    s.asked = filters.map fun f => (f.1, f.2.isNull) := by
  obtain ⟨-, -, same⟩ := ofFilters_eq_ok.mp made
  have nulls := congrArg (List.map fun c => (c.1, c.2.any Cell.isNull)) same
  rw [Selection.asked]
  simpa only [List.map_map, Function.comp_def, Option.any_some, Cell.any_isNull_ofJson?] using nulls

theorem parameters_of_ofFilters {s : Selection}
    (made : Selection.ofFilters source filters = .ok s) :
    s.parameters.map some =
      ((filters.map Prod.snd).filter fun v => !v.isNull).map Cell.ofJson? := by
  obtain ⟨-, -, same⟩ := ofFilters_eq_ok.mp made
  have wanted := congrArg (List.map Prod.snd) same
  rw [List.map_map, List.map_map] at wanted
  calc s.parameters.map some
      = (s.conditions.map fun c => some c.wanted).filter fun c => !c.any Cell.isNull := by
        simp [Selection.parameters, List.filter_map, Function.comp_def]
    _ = (filters.map fun f => Cell.ofJson? f.2).filter fun c => !c.any Cell.isNull :=
        congrArg (List.filter fun c => !c.any Cell.isNull) wanted
    _ = ((filters.map Prod.snd).filter fun v => !v.isNull).map Cell.ofJson? := by
        simp [List.filter_map, Function.comp_def, Cell.any_isNull_ofJson?]

theorem carries_of_queryFor (asked : queryFor source filters db = .ok q) :
    q.Carries source filters := by
  obtain ⟨word, -, -, s, made, rfl⟩ := queryFor_eq_ok.mp asked
  obtain ⟨source', conditions⟩ := s
  obtain ⟨same, words, pairs⟩ := ofFilters_eq_ok.mp made
  dsimp only at same pairs
  subst same
  have text : (Selection.query ⟨source', conditions⟩).text =
      askedText source' (filters.map fun f => (f.1, f.2.isNull)) := by
    rw [Selection.query, Selection.text_eq, asked_of_ofFilters made]
  have plain : ∀ name ∈ source' :: filters.map Prod.fst, isWord name = true := by
    simp only [List.forall_mem_cons, List.forall_mem_map]
    exact ⟨word, words⟩
  constructor
  case text => exact text
  case names =>
    rw [text, names?_askedText (quote_notMem_of_isWord word), List.map_map]
    · rfl
    · rw [List.forall_mem_map]
      exact fun f member => quote_notMem_of_isWord (words f member)
  case plain => exact fun name member => isWord_iff.mp (plain name member)
  case values => exact parameters_of_ofFilters made
  case meant => exact ⟨conditions, selection?_of_ofFilters word made, pairs⟩

theorem exists_queryFor_iff : (∃ q, queryFor source filters db = .ok q) ↔
    (IsPlainWord source ∧ ∀ f ∈ filters, IsPlainWord f.1 ∧ f.2.IsScalar) ∧
      db.isOpen = true ∧ (db.table? source).isSome = true := by
  simp only [queryFor_eq_ok, ← isWord_iff, ← exists_mapM_ofFilter, Selection.ofFilters, bind_eq_ok]
  constructor
  · rintro ⟨_, word, isOpen, found, _, ⟨conditions, made, -⟩, -⟩
    exact ⟨⟨word, conditions, made⟩, isOpen, found⟩
  · rintro ⟨⟨word, conditions, made⟩, isOpen, found⟩
    exact ⟨_, word, isOpen, found, _, ⟨conditions, made, rfl⟩, rfl⟩

/-- Filters that are maps with the same keys, and null under the same of them. -/
structure SameShape (filters filters' : Row) : Prop where
  ordered : filters.Ordered
  ordered' : filters'.Ordered
  nulls : ∀ key, (Fields.get? filters key).map Json.isNull =
    (Fields.get? filters' key).map Json.isNull

/-- A fetch asks its database one query or ends in an error before, and it asks one just if the name
of the table and those of the filters are plain words, the values are scalars, and there is an open
database with the table. The text of the query tells nothing of the values: filters of the same
shape have the same text, whatever the database is. Between its quotes stand the names, all of them
plain words. Each value that is not null is handed over beside the text, once and in the order of
the names, and the database compares it with what stands under its own name. -/
theorem fetch_asks (source : String) (filters : Row) (db : Database) :
    fetchRows source filters db =
        (queryFor source filters db >>= fun q => q.answer db, db) ∧
      ((∃ q, queryFor source filters db = .ok q) ↔
        (IsPlainWord source ∧ ∀ f ∈ filters, IsPlainWord f.1 ∧ f.2.IsScalar) ∧
          db.isOpen = true ∧ (db.table? source).isSome = true) ∧
      (¬ (IsPlainWord source ∧ ∀ f ∈ filters, IsPlainWord f.1 ∧ f.2.IsScalar) →
        ∃ e, queryFor source filters db = .error e ∧
          fetchRows source filters db = (.error e, db)) ∧
      ∀ q, queryFor source filters db = .ok q → q.Carries source filters ∧
        ∀ filters' db' q', SameShape filters filters' →
          queryFor source filters' db' = .ok q' → q'.text = q.text := by
  refine ⟨fetchRows_eq_queryFor, exists_queryFor_iff, ?_, ?_⟩
  · intro refused
    cases asked : queryFor source filters db with
    | error e =>
        refine ⟨e, rfl, ?_⟩
        rw [fetchRows_eq_queryFor, asked]
        rfl
    | ok q => exact absurd (exists_queryFor_iff.mp ⟨q, asked⟩).1 refused
  · intro q asked
    have carries := carries_of_queryFor asked
    refine ⟨carries, ?_⟩
    intro filters' db' q' shape asked'
    rw [(carries_of_queryFor asked').text, carries.text,
      Fields.map_eq_of_get? Json.isNull shape.ordered shape.ordered' shape.nulls]

/-- A database with a table of notes, empty. -/
def notesDatabase : Database :=
  Database.new.withTable "notes" (.empty [.declared "name" "TEXT", .declared "note" "TEXT"])

/-- Filters with a note that would end the quotes if it were a part of the text. -/
def rudeFilters : Row := [("name", .null), ("note", .str "\" OR \"\" = \"")]

/-- Filters of the same shape. -/
def politeFilters : Row := [("name", .null), ("note", .int 3)]

/-- The text of the query for a rude note is that for a polite one, and no name with a quote in it
gets into a query. -/
theorem fetch_asks_rude :
    (∃ q q', queryFor "notes" rudeFilters notesDatabase = .ok q ∧
      queryFor "notes" politeFilters notesDatabase = .ok q' ∧
      q.Carries "notes" rudeFilters ∧ q'.text = q.text) ∧
      ∃ e, fetchRows "notes" [("na\"me", .null)] notesDatabase = (.error e, notesDatabase) := by
  have notes : IsPlainWord "notes" := isWord_iff.mp (by decide)
  have name : IsPlainWord "name" := isWord_iff.mp (by decide)
  have note : IsPlainWord "note" := isWord_iff.mp (by decide)
  have isOpen : notesDatabase.isOpen = true ∧ (notesDatabase.table? "notes").isSome = true := by
    decide
  have shape : SameShape rudeFilters politeFilters := by
    have rising : "name" < "note" := by decide
    refine ⟨⟨rising, trivial⟩, ⟨rising, trivial⟩, ?_⟩
    intro key
    simp only [rudeFilters, politeFilters, Fields.get?_cons]
    split
    next => rfl
    next => split <;> rfl
  constructor
  · obtain ⟨-, asks, -, tells⟩ := fetch_asks "notes" rudeFilters notesDatabase
    obtain ⟨q, asked⟩ := asks.mpr
      ⟨⟨notes, by simp [rudeFilters, name, note, Json.IsScalar]⟩, isOpen⟩
    obtain ⟨q', asked'⟩ := (fetch_asks "notes" politeFilters notesDatabase).2.1.mpr
      ⟨⟨notes, by simp [politeFilters, name, note, Json.IsScalar]⟩, isOpen⟩
    exact ⟨q, q', asked, asked', (tells q asked).1, (tells q asked).2 _ _ q' shape asked'⟩
  · have rude : ¬ IsPlainWord "na\"me" := by
      rw [← isWord_iff]
      decide
    obtain ⟨-, -, refuses, -⟩ := fetch_asks "notes" [("na\"me", .null)] notesDatabase
    obtain ⟨e, -, refused⟩ := refuses fun fine => rude (fine.2 _ List.mem_cons_self).1
    exact ⟨e, refused⟩

end Database

end JobQueue

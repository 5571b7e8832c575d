/-
Filters on columns that a table lacks.

A name that belongs to no column is still a part of the query, and the database takes it for
something else: for the number of the line, or for the name itself as a text. A value that is not
null asks for that (`coincides`), so that no row is found unless the value is what the name is taken
for. A value that is the very name of its column always is: such a filter counts for nothing
(`fetch_absent`).
-/

import JobQueue.Export.Memory
import JobQueue.Proofs.Database.Query

namespace JobQueue

namespace Database

/-! ### What a missing column stands for -/

/-- Whether a value is what stands for a name in a line of a table that has no column of the name:
the number of the line for the names of that number, and for every other the very name. -/
def coincides (t : Table) (name : String) (v : Json) (l : Line) : Bool :=
  if t.numbers name then
    (Cell.ofJson? v).any fun c => (Cell.int l.number).same (c.compared .whole)
  else v.str? == some name

variable {db : Database} {source name : String} {t : Table} {l : Line} {filters : Row} {v : Json}

theorem Cell.text_same {c : Cell} {s : String} :
    (Cell.text s).same c = true ↔ c = .text s := by
  cases c with
  | text t => rw [same_text, text.injEq, text.injEq, eq_comm]
  | null => simp [same, isNull]
  | int n | real x | bytes b => exact iff_of_false Bool.false_ne_true (by simp)

theorem Cell.ofJson?_eq_text {s : String} : ofJson? v = some (.text s) ↔ v.str? = some s := by
  cases v with
  | null | bool | double | str | arr | obj => simp [ofJson?, Json.str?]
  | int n =>
      rw [ofJson?, Option.some.injEq]
      split <;> simp [Json.str?]

theorem Cell.isNull_of_ofJson? {c : Cell} (made : ofJson? v = some c) (notNull : v ≠ .null) :
    c.isNull = false := by
  have same := any_isNull_ofJson? v
  rw [made, Option.any_some] at same
  rw [same]
  cases v with
  | null => exact absurd rfl notNull
  | bool | int | double | str | arr | obj => rfl

/-- A line has what is asked for under a missing column if the value coincides with what the
database takes the name for. -/
theorem holds_eq_coincides {c : Condition} (lacks : t.place? c.name = none) (notNull : v ≠ .null)
    (made : Cell.ofJson? v = some c.wanted) : c.holds t l = coincides t c.name v l := by
  have asked : c.wanted.isNull = false := Cell.isNull_of_ofJson? made notNull
  rw [Condition.holds, Condition.subject, lacks]
  dsimp only
  rw [coincides]
  cases t.numbers c.name with
  | true => simp [asked, made, Column.free, Column.identifies_of_exact]
  | false =>
      rw [Bool.eq_iff_iff]
      simp [asked, Column.free, Column.identifies_of_exact, Cell.compared, Cell.text_same,
        ← Cell.ofJson?_eq_text, made]

/-- The filter on a column is one of the conditions that a fetch has. -/
theorem exists_condition {conditions : List Condition}
    (made : (filters.mapM fun (name, value) => Condition.ofFilter name value) = .ok conditions)
    (asked : (name, v) ∈ filters) :
    ∃ c ∈ conditions, c.name = name ∧ Cell.ofJson? v = some c.wanted := by
  obtain ⟨-, same⟩ := mapM_ofFilter_eq_ok.mp made
  have member := List.mem_map_of_mem (f := fun f : String × Json => (f.1, Cell.ofJson? f.2)) asked
  rw [← same] at member
  obtain ⟨c, kept, pair⟩ := List.mem_map.mp member
  obtain ⟨named, wanted⟩ := Prod.mk.inj pair
  exact ⟨c, kept, named, wanted.symm⟩

/-! ### Fetching by a missing column -/

/-- Nothing is found by a missing column if no line coincides with the value. -/
theorem eq_nil_of_fetchRows (found : db.table? source = some t) (lacks : t.place? name = none)
    (asked : (name, v) ∈ filters) (notNull : v ≠ .null)
    (differ : ∀ l ∈ t.lines, coincides t name v l = false) {rows : List Row}
    (fetched : (fetchRows source filters db).1 = .ok rows) : rows = [] := by
  obtain ⟨t', conditions, found', made, rfl⟩ := of_fetchRows fetched
  obtain rfl : t = t' := Option.some.inj (found.symm.trans found')
  obtain ⟨c, kept, rfl, wanted⟩ := exists_condition made asked
  rw [List.map_eq_nil_iff, Selection.lines, List.filter_eq_nil_iff]
  intro l there holds
  have own : coincides t c.name v l = true := by
    rw [← holds_eq_coincides lacks notNull wanted]
    exact List.all_eq_true.mp holds c kept
  rw [differ l there] at own
  cases own

/-- The lines that are found with one filter more are those that have what it asks for. -/
theorem rowsOf_more {c : Condition} (found : db.table? source = some t)
    (made : Condition.ofFilter name v = .ok c) (before after : Row) :
    rowsOf source (before ++ (name, v) :: after) db =
      (Selection.ofFilters source (before ++ after)).map fun s =>
        ((s.lines t).filter (c.holds t)).map t.toFields := by
  rw [rowsOf, found]
  simp only [Selection.ofFilters, List.mapM_append, List.mapM_cons, made]
  cases before.mapM fun (name, value) => Condition.ofFilter name value with
  | error e => rfl
  | ok first =>
      cases after.mapM fun (name, value) => Condition.ofFilter name value with
      | error e => rfl
      | ok second =>
          have same : Selection.lines ⟨source, first ++ c :: second⟩ t =
              (Selection.lines ⟨source, first ++ second⟩ t).filter (c.holds t) := by
            simp only [Selection.lines, List.filter_filter, List.all_append, List.all_cons]
            congr 1
            funext l
            ac_rfl
          exact congrArg (fun lines => Except.ok (lines.map t.toFields)) same

/-- The lines that are found by a missing column are those that coincide with the value, of all that
are found without it. -/
theorem rowsOf_missing (found : db.table? source = some t) (lacks : t.place? name = none)
    (notNull : v ≠ .null) (word : isWord name = true) (scalar : v.IsScalar) (before after : Row) :
    rowsOf source (before ++ (name, v) :: after) db =
      (Selection.ofFilters source (before ++ after)).map fun s =>
        ((s.lines t).filter (coincides t name v)).map t.toFields := by
  obtain ⟨wanted, known⟩ := Option.isSome_iff_exists.mp (Cell.isSome_ofJson?.mpr scalar)
  have made : Condition.ofFilter name v = .ok ⟨name, wanted⟩ :=
    Condition.ofFilter_eq_ok.mpr ⟨word, rfl, known⟩
  have same : Condition.holds t ⟨name, wanted⟩ = coincides t name v := by
    funext l
    have lacking : t.place? (Condition.mk name wanted).name = none := lacks
    exact holds_eq_coincides lacking notNull known
  rw [rowsOf_more found made, same]

end Database

namespace MemorySource

/-- In memory, no row without a field has a value under it that is not null. -/
theorem isSome_of_fetch {m : MemorySource} {source name : String} {filters : Row} {v : Json}
    {rows : List Row} (asked : (name, v) ∈ filters) (notNull : v ≠ .null)
    (fetched : m.fetch source filters = .ok rows) {row : Row} (member : row ∈ rows) :
    (Fields.get? row name).isSome = true := by
  rw [fetch] at fetched
  split at fetched
  next listed =>
    cases fetched
    have same := List.all_eq_true.mp (List.mem_filter.mp member).2 _ asked
    dsimp only at same
    cases here : Fields.get? row name with
    | some => rfl
    | none =>
        rw [here, Option.getD_none] at same
        cases v with
        | null => exact absurd rfl notNull
        | bool | int | double | str | arr | obj => simp [Json.same] at same
  next => cases fetched

end MemorySource

namespace Database

/-- A fetch with a filter on a column that the table lacks finds no row if no line coincides with
its value, as a source in memory finds no row that lacks the field. In any case its rows are those
of the lines that the other filters select and that coincide with the value. A value that is the
name of its column coincides with every line, and then the filter counts for nothing. -/
theorem fetch_absent {db : Database} {source name : String} {t : Table} {filters : Row} {v : Json}
    (found : db.table? source = some t) (lacks : t.place? name = none)
    (asked : (name, v) ∈ filters) (notNull : v ≠ .null) :
    ((∀ l ∈ t.lines, coincides t name v l = false) →
        ∀ rows, (fetchRows source filters db).1 = .ok rows → rows = []) ∧
      (IsPlainWord name → v.IsScalar → IsPlainWord source → db.isOpen = true →
        ∀ before after, filters = before ++ (name, v) :: after →
          (fetchRows source filters db).1 =
            (Selection.ofFilters source (before ++ after)).map fun s =>
              ((s.lines t).filter (coincides t name v)).map t.toFields) ∧
      (v = .str name → IsPlainWord name → t.numbers name = false →
        ∀ before after, filters = before ++ (name, v) :: after →
          fetchRows source filters db = fetchRows source (before ++ after) db) ∧
      ∀ (m : MemorySource) rows, m.fetch source filters = .ok rows → ∀ row ∈ rows,
        (Fields.get? row name).isSome = true := by
  refine ⟨?_, ?_, ?_, ?_⟩
  · intro differ rows fetched
    exact eq_nil_of_fetchRows found lacks asked notNull differ fetched
  · rintro word scalar named isOpen before after rfl
    rw [fetchRows, if_pos (isWord_iff.mpr named), read, if_pos isOpen]
    exact rowsOf_missing found lacks notNull (isWord_iff.mpr word) scalar before after
  · rintro rfl word plain before after rfl
    have every : coincides t name (.str name) = fun _ => true := by
      funext l
      simp [coincides, plain, Json.str?]
    have same : rowsOf source (before ++ (name, .str name) :: after) db =
        rowsOf source (before ++ after) db := by
      rw [rowsOf_missing found lacks notNull (isWord_iff.mpr word) trivial, every, rowsOf, found]
      simp only [List.filter_true]
    rw [fetchRows, fetchRows, read, read, same]
  · intro m rows fetched row member
    exact MemorySource.isSome_of_fetch asked notNull fetched member

/-- A table of people with one line in it. -/
def peopleTable : Table := ⟨[.declared "name" "TEXT"], [⟨1, [.text "Ann"]⟩], true⟩

/-- A database with that table. -/
def peopleDatabase : Database := Database.new.withTable "people" peopleTable

/-- Nobody is found under a missing column with a number in it, and a filter that asks the column
for its own name counts for nothing. -/
theorem fetch_absent_ghost :
    (∀ rows, (fetchRows "people" [("ghost", .int 3)] peopleDatabase).1 = .ok rows → rows = []) ∧
      fetchRows "people" [("ghost", .str "ghost"), ("name", .str "Ann")] peopleDatabase =
        fetchRows "people" [("name", .str "Ann")] peopleDatabase := by
  have found : peopleDatabase.table? "people" = some peopleTable := rfl
  have lacks : peopleTable.place? "ghost" = none := by decide
  have plain : peopleTable.numbers "ghost" = false := by decide
  constructor
  · have asked : ("ghost", Json.int 3) ∈ [("ghost", Json.int 3)] := List.mem_cons_self
    obtain ⟨nothing, -⟩ := fetch_absent found lacks asked (by simp)
    apply nothing
    intro l _
    rw [coincides, plain]
    rfl
  · have asked : ("ghost", Json.str "ghost") ∈ [("ghost", .str "ghost"), ("name", .str "Ann")] :=
      List.mem_cons_self
    obtain ⟨-, -, nothing, -⟩ := fetch_absent found lacks asked (by simp)
    exact nothing rfl (isWord_iff.mp (by decide)) plain [] _ rfl

/-- Ann is found under a missing column with its own name in it. -/
theorem ghost_found : peopleDatabase.table? "people" = some peopleTable ∧
    peopleTable.place? "ghost" = none ∧
    fetchRows "people" [("ghost", .str "ghost")] peopleDatabase =
      (.ok [[("name", .str "Ann")]], peopleDatabase) := by
  have found : peopleDatabase.table? "people" = some peopleTable := rfl
  have lacks : peopleTable.place? "ghost" = none := by decide
  exact ⟨found, lacks, rfl⟩

end Database

end JobQueue

import Mathlib.Data.List.Nodup
import Scaffold.Toml.Section

/-!
What the sections of a TOML document say: tables in tables, and arrays of tables. A heading leads
to its table from the root, through the last element of an array, and through tables that no heading
has defined yet. No key stands twice in a table, and no table is defined twice.
-/

namespace Scaffold.Toml

inductive Node where
  | value (v : Value)
  /-- A table. One that only the headings of its parts have named is not defined yet. -/
  | table (isDefined : Bool) (members : List (String × Node))
  | tables (elements : List (List (String × Node)))

abbrev Members := List (String × Node)

/-- Gives a key its node, in place of one that it has. -/
def put (key : String) (n : Node) : Members → Members
  | [] => [(key, n)]
  | (other, m) :: rest =>
    if key = other then (key, n) :: rest else (other, m) :: put key n rest

/-- The table with entries more, whose keys have to be new. -/
def addEntries? (ms : Members) : List (String × Value) → Option Members
  | [] => some ms
  | (key, v) :: entries =>
    if (ms.lookup key).isSome then none else addEntries? (ms ++ [(key, .value v)]) entries

/-- Changes what stands at the end of a path. -/
def change? (f : Option Node → Option Node) : List String → Members → Option Members
  | [], _ => none
  | [key], ms => (f (ms.lookup key)).map fun n => put key n ms
  | key :: path, ms =>
    match ms.lookup key with
    | none => (change? f path []).map fun sub => put key (.table false sub) ms
    | some (.table isDefined sub) =>
      (change? f path sub).map fun sub => put key (.table isDefined sub) ms
    | some (.tables elements) =>
      match elements.getLast? with
      | none => none
      | some last =>
        (change? f path last).map fun last => put key (.tables (elements.dropLast ++ [last])) ms
    | some (.value _) => none

/-- A heading defines its table, which was not defined before. -/
def defineTable? (entries : List (String × Value)) : Option Node → Option Node
  | none => (addEntries? [] entries).map (.table true)
  | some (.table false ms) => (addEntries? ms entries).map (.table true)
  | some _ => none

/-- A heading in double brackets gives an array one more element. -/
def addElement? (entries : List (String × Value)) : Option Node → Option Node
  | none => (addEntries? [] entries).map fun ms => .tables [ms]
  | some (.tables elements) => (addEntries? [] entries).map fun ms => .tables (elements ++ [ms])
  | some _ => none

def addSection? (ms : Members) (s : Section) : Option Members :=
  match s.heading with
  | .root => addEntries? ms s.entries
  | .table path => change? (defineTable? s.entries) path ms
  | .element path => change? (addElement? s.entries) path ms

/-- The table that a document is. -/
def root? (sections : List Section) : Option Members := sections.foldlM addSection? []

/-- The members that entries are. -/
def members (entries : List (String × Value)) : Members :=
  entries.map fun entry => (entry.1, .value entry.2)

theorem map_fst_members (entries : List (String × Value)) :
    (members entries).map (·.1) = entries.map (·.1) := by
  simp [members, Function.comp_def]

section Fresh

variable {key : String} {ms : Members}

theorem put_append (h : ms.lookup key = none) (n : Node) (rest : Members) :
    put key n (ms ++ rest) = ms ++ put key n rest := by
  induction ms with
  | nil => rfl
  | cons m ms ih =>
    obtain ⟨hkey, hrest⟩ : key ≠ m.1 ∧ ms.lookup key = none := by
      simpa [List.lookup_eq_none_iff] using h
    simp [put, hkey, ih hrest]

theorem put_eq_append (h : ms.lookup key = none) (n : Node) :
    put key n ms = ms ++ [(key, n)] := by
  simpa [put] using put_append h n []

theorem put_append_singleton (h : ms.lookup key = none) (old n : Node) :
    put key n (ms ++ [(key, old)]) = ms ++ [(key, n)] := by
  simp [put_append h, put]

theorem lookup_append_singleton (h : ms.lookup key = none) (n : Node) :
    (ms ++ [(key, n)]).lookup key = some n := by
  simp [List.lookup_append, h]

theorem lookup_eq_none_of_notMem (h : key ∉ ms.map (·.1)) : ms.lookup key = none := by
  rw [List.lookup_eq_none_iff]
  intro m hm
  exact bne_iff_ne.mpr fun hkey => h (List.mem_map.mpr ⟨m, hm, hkey.symm⟩)

end Fresh

/-- Entries with keys of their own are members of the table. -/
theorem addEntries?_eq {ms : Members} {entries : List (String × Value)}
    (h : (ms.map (·.1) ++ entries.map (·.1)).Nodup) :
    addEntries? ms entries = some (ms ++ members entries) := by
  induction entries generalizing ms with
  | nil => simp [addEntries?, members]
  | cons entry entries ih =>
    have hnew : ms.lookup entry.1 = none :=
      lookup_eq_none_of_notMem fun hmem =>
        (List.nodup_append.mp h).2.2 _ hmem _ List.mem_cons_self rfl
    have hnext : ((ms ++ [(entry.1, Node.value entry.2)]).map (·.1) ++
        entries.map (·.1)).Nodup := by
      simpa using h
    rw [addEntries?, hnew, Option.isSome_none, if_neg (by decide), ih hnext]
    simp [members]

theorem addEntries?_nil {entries : List (String × Value)} (h : (entries.map (·.1)).Nodup) :
    addEntries? [] entries = some (members entries) :=
  addEntries?_eq h

section Sections

variable {name : String} {ms : Members} {entries : List (String × Value)}

theorem addSection?_table (hnew : ms.lookup name = none) (h : (entries.map (·.1)).Nodup) :
    addSection? ms ⟨.table [name], entries⟩ =
      some (ms ++ [(name, .table true (members entries))]) := by
  simp [addSection?, change?, hnew, defineTable?, addEntries?_nil h, put_eq_append hnew]

theorem addSection?_element (hnew : ms.lookup name = none) (h : (entries.map (·.1)).Nodup) :
    addSection? ms ⟨.element [name], entries⟩ =
      some (ms ++ [(name, .tables [members entries])]) := by
  simp [addSection?, change?, hnew, addElement?, addEntries?_nil h, put_eq_append hnew]

/-- Elements of one array, in their order. -/
theorem foldlM_elements {α : Type} {f : α → List (String × Value)}
    (h : ∀ a, ((f a).map (·.1)).Nodup) (hnew : ms.lookup name = none) (front : List Members)
    (as : List α) :
    (as.map fun a => (⟨.element [name], f a⟩ : Section)).foldlM addSection?
        (ms ++ [(name, .tables front)]) =
      some (ms ++ [(name, .tables (front ++ as.map fun a => members (f a)))]) := by
  induction as generalizing front with
  | nil => simp
  | cons a as ih =>
    have hstep : addSection? (ms ++ [(name, .tables front)]) ⟨.element [name], f a⟩ =
        some (ms ++ [(name, .tables (front ++ [members (f a)]))]) := by
      simp [addSection?, change?, lookup_append_singleton hnew, addElement?, addEntries?_nil (h a),
        put_append_singleton hnew]
    rw [List.map_cons, List.foldlM_cons, hstep, Option.bind_eq_bind, Option.bind_some, ih]
    simp

/-- Tables in a table, each with a name of its own. -/
theorem foldlM_subtables (hnew : ms.lookup name = none) (isDefined : Bool) (sub : Members)
    {tables : List (String × List (String × Value))}
    (hnames : (sub.map (·.1) ++ tables.map (·.1)).Nodup)
    (h : ∀ t ∈ tables, (t.2.map (·.1)).Nodup) :
    (tables.map fun t => (⟨.table [name, t.1], t.2⟩ : Section)).foldlM addSection?
        (ms ++ [(name, .table isDefined sub)]) =
      some (ms ++ [(name, .table isDefined
        (sub ++ tables.map fun t => (t.1, .table true (members t.2))))]) := by
  induction tables generalizing sub with
  | nil => simp
  | cons t tables ih =>
    obtain ⟨ht, htables⟩ := List.forall_mem_cons.mp h
    have hfresh : sub.lookup t.1 = none :=
      lookup_eq_none_of_notMem fun hmem =>
        (List.nodup_append.mp hnames).2.2 _ hmem _ List.mem_cons_self rfl
    have hstep : addSection? (ms ++ [(name, .table isDefined sub)]) ⟨.table [name, t.1], t.2⟩ =
        some (ms ++ [(name, .table isDefined (sub ++ [(t.1, .table true (members t.2))]))]) := by
      simp [addSection?, change?, lookup_append_singleton hnew, hfresh, defineTable?,
        addEntries?_nil ht, put_eq_append hfresh, put_append_singleton hnew]
    have hnext : ((sub ++ [(t.1, Node.table true (members t.2))]).map (·.1) ++
        tables.map (·.1)).Nodup := by
      simpa using hnames
    rw [List.map_cons, List.foldlM_cons, hstep, Option.bind_eq_bind, Option.bind_some,
      ih _ hnext htables]
    simp

/-- A table that only the headings of its parts name. -/
theorem addSection?_subtable (hnew : ms.lookup name = none) (key : String)
    (h : (entries.map (·.1)).Nodup) :
    addSection? ms ⟨.table [name, key], entries⟩ =
      some (ms ++ [(name, .table false [(key, .table true (members entries))])]) := by
  simp [addSection?, change?, hnew, defineTable?, addEntries?_nil h, put_eq_append hnew, put]

end Sections

/-- No table is defined twice. -/
example : root? [⟨.table ["a"], [("b", .text "c")]⟩, ⟨.table ["a"], []⟩] = none := rfl

end Scaffold.Toml

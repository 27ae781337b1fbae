/-
  ArrowLint.Value.Basic

  Values of documents whose shape nobody has checked: settings, the registry of
  messages, and the reports the linter writes. A table keeps its keys in the order in
  which they came, and a key that comes again changes the value in its place
  (`Table.put`).
-/

namespace ArrowLint

/-- A decimal number as it is written: a sign, its `digits`, and the power of ten of the last. -/
structure Decimal where
  isNegative : Bool
  digits : Nat
  exponent : Int
  deriving DecidableEq

/-- A value of a document. Dates and times, and numbers that are infinite or none, have no case: no
    option admits one, and the lists of the settings leave out whatever is no `text`. -/
inductive Value where
  | null
  | bool (value : Bool)
  | int (value : Int)
  | decimal (value : Decimal)
  | text (value : String)
  | list (items : List Value)
  | table (entries : List (String × Value))

/-- Keys with their values, in order; `Table.get?` is the value of a key. -/
abbrev Table := List (String × Value)

namespace Table

/-- The value of the first entry under `key`. -/
def get? (t : Table) (key : String) : Option Value :=
  List.lookup key t

/-- Whether there is an entry under `key`. -/
def has (t : Table) (key : String) : Bool :=
  t.any (·.1 == key)

/-- The table with `key` set to `value`: in its place if the key is there, else at the end. -/
def put (t : Table) (key : String) (value : Value) : Table :=
  if has t key then t.map fun entry => if entry.1 == key then (key, value) else entry
  else t ++ [(key, value)]

/-- The table that a sequence of settings leaves, each made by `put`. -/
def ofEntries (entries : List (String × Value)) : Table :=
  entries.foldl (fun t entry => put t entry.1 entry.2) []

/-- The table `put t key value` has the keys of `t` and `key`, and no other. -/
theorem has_put {t : Table} {key : String} {value : Value} {k : String} :
    has (put t key value) k = (has t k || key == k) := by
  unfold put
  split
  case isTrue h =>
    -- the key is there already: its entry keeps its place and its name
    have map_has : ∀ t : Table,
        has (t.map fun entry => if entry.1 == key then (key, value) else entry) k = has t k := by
      intro t
      induction t with
      | nil => rfl
      | cons entry t ih =>
        simp only [has, List.map_cons, List.any_cons] at ih ⊢
        rw [ih]
        by_cases same : entry.1 = key <;> simp [same]
    rw [map_has]
    by_cases same : key = k
    · subst same
      simp [h]
    · simp [same]
  case isFalse => simp [has]

/-- The table `ofEntries entries` has the keys of `entries`, and no other. -/
theorem has_ofEntries {entries : List (String × Value)} {k : String} :
    has (ofEntries entries) k = entries.any (·.1 == k) := by
  have foldl_has : ∀ t : Table,
      has (entries.foldl (fun t entry => put t entry.1 entry.2) t) k
        = (has t k || entries.any (·.1 == k)) := by
    induction entries with
    | nil => simp
    | cons entry entries ih => simp [ih, has_put, Bool.or_assoc]
  simpa [ofEntries, has] using foldl_has []

end Table

namespace Value

/-- Whether a value counts as present: `null`, `false`, zero, and the empty text, list and table do
    not. -/
def isPresent : Value → Bool
  | .null => false
  | .bool b => b
  | .int i => i != 0
  | .decimal d => d.digits != 0
  | .text s => s != ""
  | .list items => !items.isEmpty
  | .table entries => !entries.isEmpty

/-- Whether a value is `null`. -/
def isNull : Value → Bool
  | .null => true
  | _ => false

/-- Whether `v` is the text `s`. -/
def isText (v : Value) (s : String) : Bool :=
  match v with
  | .text t => t == s
  | _ => false

/-- The text that a value is, if it is one. -/
def text? : Value → Option String
  | .text s => some s
  | _ => none

/-- The items of a value that is a list. -/
def items? : Value → Option (List Value)
  | .list items => some items
  | _ => none

/-- The entries of a value that is a table. -/
def table? : Value → Option Table
  | .table entries => some entries
  | _ => none

/-- The texts that a value is a series of: the items of a list, if all are texts, the characters of
    a text, or the keys of a table. -/
def texts? : Value → Option (List String)
  | .list items => items.mapM text?
  | .text s => some (s.toList.map String.singleton)
  | .table entries => some (entries.map (·.1))
  | _ => none

end Value

end ArrowLint

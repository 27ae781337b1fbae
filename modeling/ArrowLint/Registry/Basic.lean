/-
  ArrowLint.Registry.Basic

  The registry of messages: for each message a table with its text, its names and advice
  to users. Nobody has checked what stands in a registry, so an entry may be of any
  shape. Looking up an entry and its message text passes over everything that is no
  table and never fails; the advice and the listing take an entry for what it should
  be, and fail where it is something else.
-/

import ArrowLint.Message
import ArrowLint.Text.Search
import ArrowLint.Value.Literal

namespace ArrowLint

/-- What goes wrong where a registry is not of the shape it should have. -/
inductive RegistryError where
  /-- The value that `get?` is asked of is no table. -/
  | noLookup
  /-- The value that is searched for a key cannot be searched. -/
  | notSearchable
  /-- The value that is to be opened by a key opens by position. -/
  | notKeyed
  deriving DecidableEq

/-- One line of the listing, by the `id` of a message. -/
structure RegistryRow where
  id : String
  name : String
  description : String
  deriving DecidableEq

namespace Registry

/-- What the keys of all entries of this linter start with. -/
def keyLead : String := "prefer-arrow."

/-- The key of the entry that speaks for messages without `adviceKey`. -/
def defaultKey : String := keyLead ++ "_default"

/-! ## Entries and texts -/

/-- Whether `entry` goes by `symbol`, its value under that key. -/
def hasSymbol (entry : Table) (symbol : String) : Bool :=
  match entry.get? "symbol" with
  | some v => v.isText symbol
  | none => false

/-- The table of a `row`, if it goes by `symbol` and its key starts with `keyLead` but is not
    `defaultKey`. -/
def bySymbol? (symbol : String) (row : String × Value) : Option Table :=
  if !Text.startsWith row.1 keyLead || row.1 == defaultKey then none
  else row.2.table?.filter (hasSymbol · symbol)

/-- The entry of a message: the one under `keyLead ++ id`, else the first `bySymbol?`. -/
def lookup? (registry : Table) (id : String) : Option Table :=
  ((registry.get? (keyLead ++ id)).bind Value.table?) <|>
    registry.findSome? (bySymbol? id)

/-- The value of `key`, if it `isPresent`. -/
def present? (entry : Table) (key : String) : Option Value :=
  (entry.get? key).filter Value.isPresent

/-- The text of a message: the `message_template` of its entry if that is present, else
    `defaultText`. -/
def textOf (registry : Table) (m : Message) : String :=
  match (lookup? registry m.id).bind (present? · "message_template") with
  | some template => template.display
  | none => m.defaultText

/-- The texts of all messages under their `id`s, as `textOf` finds them. -/
def texts (registry : Table) : List (String × String) :=
  Message.all.map fun m => (m.id, textOf registry m)

/-! ## Advice -/

/-- The key of the advice in an entry. -/
def adviceKey : String := "manual_instructions"

/-- The advice where neither the entry of a message nor that of `defaultKey` has one. -/
def plainAdvice : String :=
  "Rewrite the function as an arrow function at the reported location."

/-- The advice of the entry under `defaultKey`, else `plainAdvice`. Where `adviceKey` is found in
    something that is no table, it does not open. -/
def defaultAdvice (registry : Table) : Except RegistryError String :=
  match registry.get? defaultKey with
  | none => .ok plainAdvice
  | some entry =>
    if !entry.isPresent then .ok plainAdvice
    else
      match entry with
      | .table entry => .ok (((Table.get? entry adviceKey).map Value.display).getD plainAdvice)
      | .text s => if Text.contains s adviceKey then .error .notKeyed else .ok plainAdvice
      | .list items =>
        if items.any (·.isText adviceKey) then .error .notKeyed else .ok plainAdvice
      | _ => .error .notSearchable

/-- The advice for a message: the value of `adviceKey` in its entry, else `defaultAdvice`. -/
def advice (registry : Table) (id : String) : Except RegistryError String :=
  match (lookup? registry id).bind (Table.get? · adviceKey) with
  | some value => .ok value.display
  | none => defaultAdvice registry

/-- The name under which a message is shown: the first of `display_name` and `short_description`
    that is present in its entry, else its `id`. -/
def displayName (registry : Table) (id : String) : String :=
  match lookup? registry id with
  | none => id
  | some entry =>
    match present? entry "display_name" <|> present? entry "short_description" with
    | some name => name.display
    | none => id

/-! ## The listing -/

/-- Whether `key` is that of an entry for a message: it starts with `keyLead` and does not end in
    `._default`. -/
def isListed (key : String) : Bool :=
  Text.startsWith key keyLead && !Text.endsWith key "._default"

/-- The `RegistryRow` of an entry, by the rest of its `key` behind `keyLead`. -/
def row (key : String) (entry : Value) : Except RegistryError RegistryRow :=
  let id := String.ofList (key.toList.drop keyLead.toList.length)
  match entry with
  | .table entry =>
    .ok {
      id := id
      name := ((present? entry "display_name").map Value.display).getD id
      description := ((present? entry "short_description").map Value.display).getD "" }
  | _ => .error .noLookup

/-- The rows of the entries that are `isListed`, ordered by `id`. -/
def rows (registry : Table) : Except RegistryError (List RegistryRow) :=
  ((registry.filter (isListed ·.1)).mapM fun entry => row entry.1 entry.2).map fun rows =>
    rows.mergeSort fun a b => a.id ≤ b.id

end Registry

end ArrowLint

/-
  ArrowLint.Message

  The four messages of the rule, and the texts that are reported for them. Every message
  has a text of its own; a project may put others in their place.
-/

namespace ArrowLint

/-- What the rule asks for. Each message has an `id`, and a `defaultText`. -/
inductive Message where
  | useArrowWhenFunction
  | useArrowWhenSingleReturn
  | useExplicit
  | useImplicit
  deriving DecidableEq

namespace Message

/-- The name by which a `Message` is known to users and in the registry. -/
def id : Message → String
  | .useArrowWhenFunction => "UseArrowWhenFunction"
  | .useArrowWhenSingleReturn => "UseArrowWhenSingleReturn"
  | .useExplicit => "UseExplicit"
  | .useImplicit => "UseImplicit"

/-- The messages, in the order of their `id`s. -/
def all : List Message :=
  [.useArrowWhenFunction, .useArrowWhenSingleReturn, .useExplicit, .useImplicit]

/-- The text of a message where `MessageTexts` give no other. -/
def defaultText : Message → String
  | .useArrowWhenFunction => "Prefer using arrow functions over plain functions"
  | .useArrowWhenSingleReturn =>
    "Prefer using arrow functions when the function contains only a return"
  | .useExplicit => "Prefer using explicit returns when the arrow function contain only a return"
  | .useImplicit => "Prefer using implicit returns when the arrow function contain only a return"

end Message

/-- Texts by the `Message.id` that they are for; the first for a name counts. -/
structure MessageTexts where
  entries : List (String × String)

namespace MessageTexts

/-- The `defaultText` of each message. -/
def default : MessageTexts :=
  ⟨Message.all.map fun m => (m.id, m.defaultText)⟩

/-- The texts with `text` for `id`: in its place if `id` has one, else at the end. -/
def put (texts : MessageTexts) (id text : String) : MessageTexts :=
  if texts.entries.any (·.1 == id) then
    ⟨texts.entries.map fun entry => if entry.1 == id then (id, text) else entry⟩
  else ⟨texts.entries ++ [(id, text)]⟩

/-- The `default` texts with those of `given` in their place or beside them. -/
def withTexts (given : List (String × String)) : MessageTexts :=
  given.foldl (fun texts entry => texts.put entry.1 entry.2) default

/-- The text for `id`; a name without a text stands for itself. -/
def textFor (texts : MessageTexts) (id : String) : String :=
  (texts.entries.lookup id).getD id

end MessageTexts

end ArrowLint

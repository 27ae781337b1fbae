/-
  ArrowLint.Services

  The services that a project is put together from, by the keys under which other tools
  ask for them.
-/

namespace ArrowLint

/-- A service of a project, by the key that `Service.ofKey?` looks up. -/
inductive Service where
  | settings
  | progress
  | parser
  | files
  | fixer
  | registry
  deriving DecidableEq

/-- A `key` that stands for no `Service`. -/
structure UnknownService where
  key : String
  deriving DecidableEq

/-- The wording of the failure to find `e.key`. -/
def UnknownService.message (e : UnknownService) : String :=
  "Dependency '" ++ e.key ++ "' not registered."

namespace Service

/-- The key of a `Service`. -/
def key : Service → String
  | .settings => "ConfigurationLoader"
  | .progress => "TelemetryPort"
  | .parser => "TreeSitterGateway"
  | .files => "FileSystemGateway"
  | .fixer => "TextFixerGateway"
  | .registry => "GuidanceService"

/-- The services, each once. -/
def all : List Service :=
  [.settings, .progress, .parser, .files, .fixer, .registry]

/-- The service whose `key` is asked for. -/
def ofKey (key : String) : Except UnknownService Service :=
  match all.find? (·.key == key) with
  | some service => .ok service
  | none => .error ⟨key⟩

/-- The name of what provides a service: that of the `key`, but for the progress. -/
def provider : Service → String
  | .progress => "ProjectTelemetry"
  | service => service.key

end Service

end ArrowLint

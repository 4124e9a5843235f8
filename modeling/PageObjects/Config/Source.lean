import PageObjects.Config.Check
import PageObjects.File.Path
import PageObjects.Json.Reader
import PageObjects.Yaml.Value

namespace PageObjects

mutual

/-- A value with another one laid over it: mappings are merged, everything else is replaced. -/
def Json.overlay (base : Json) : Json → Json
  | .object fields =>
    match base with
    | .object old => .object (Json.overlayFields old fields)
    | _ => .object fields
  | v => v

/-- Fields with others laid over them. -/
def Json.overlayFields (base : List (Text × Json)) : List (Text × Json) → List (Text × Json)
  | [] => base
  | (key, v) :: rest =>
    Json.overlayFields (setEntry key (Json.overlay ((valueAt? key base).getD .null) v) base) rest

end

/-- Why a file gives no options. -/
inductive ConfigError where
  | missing (name : Text)
  | noMapping (name : Text)
  | malformed (name : Text) (detail : Option Text)
  | rejected (issues : List Issue)
  deriving DecidableEq, Repr

def ConfigError.message : ConfigError → Text
  | missing name => "Config file not found: " ++ name
  | noMapping name => "Config file must contain a mapping: " ++ name
  | malformed name none => "Could not parse " ++ name
  | malformed name (some detail) => "Could not parse " ++ name ++ ": " ++ detail
  | rejected _ => "Invalid configuration"

/-- Why no options are loaded: the file gives none, or reading it breaks off. -/
inductive LoadError where
  | config (error : ConfigError)
  | excess (error : Excess)
  | yaml (message : Text)
  deriving DecidableEq, Repr

/-- Whether a file name tells that the file is in YAML. -/
def isYamlName (name : Text) : Bool :=
  let suffix := (FilePath.ofText name).suffix
  suffix == ".yaml".toList || suffix == ".yml".toList

namespace Config

/-- The value that a file holds. An empty YAML file holds no options. -/
def parseFile (yaml : YamlReader) (name content : Text) : Except LoadError Json :=
  let t := Text.readBreaks content
  if isYamlName name then
    match yaml t with
    | .error (.malformed detail) => .error (.config (.malformed name detail))
    | .error (.broken message) => .error (.yaml message)
    | .ok v => .ok (if v.isEmptyish then .object [] else v)
  else match Json.read t with
    | .error (.fault fault) => .error (.config (.malformed name (some (fault.message t))))
    | .error (.excess e) => .error (.excess e)
    | .ok v => .ok v

/-- The fields of a file that may be missing. -/
def readFile (yaml : YamlReader) (name : Text) :
    Option Text → Except LoadError (List (Text × Json))
  | none => .error (.config (.missing name))
  | some content => do
    match ← parseFile yaml name content with
    | .object fields => return fields
    | _ => throw (.config (.noMapping name))

/-- The options of a file, if one is named, with overrides. -/
def load (yaml : YamlReader) (file : Option (Text × Option Text)) (overrides : Json) :
    Except LoadError Config := do
  let fields ← match file with
    | none => pure []
    | some (name, content) => readFile yaml name content
  (ofJson (Json.overlay (.object fields) (if overrides.isEmptyish then .object [] else overrides)))
    |>.mapError fun issues => .config (.rejected issues)

end Config

end PageObjects

import ToolchainUtils.PyString

set_option autoImplicit false

namespace ToolchainUtils.Crosperf.ExperimentFile

open PyString

inductive SettingsType where
  | global
  | label
  | benchmark
deriving DecidableEq, Repr

inductive FieldKind where
  | text
  | boolean
  | integer
  | list
deriving DecidableEq, Repr

inductive Value where
  | text (text : Text)
  | boolean (b : Bool)
  | integer (n : Int)
  | list (words : List Text)
deriving DecidableEq

-- What a Field is made with; a ListField has no default value.
structure FieldSpec where
  name : Text
  kind : FieldKind
  default : Option Value
  required : Bool
deriving DecidableEq

def textField (name default : Text) : FieldSpec := ⟨name, .text, some (.text default), false⟩

def booleanField (name : Text) (default : Bool) : FieldSpec := ⟨name, .boolean, some (.boolean default), false⟩

def integerField (name : Text) (default : Int) : FieldSpec := ⟨name, .integer, some (.integer default), false⟩

def listField (name : Text) : FieldSpec := ⟨name, .list, none, false⟩

def benchmarkFields : List FieldSpec :=
  [textField "test_name".toList [], textField "test_args".toList [], integerField "iterations".toList 1,
    textField "suite".toList [], integerField "retries".toList 0, booleanField "run_local".toList true]

def labelFields : List FieldSpec :=
  [textField "chromeos_image".toList [], textField "autotest_path".toList [], textField "chromeos_root".toList [],
    listField "remote".toList, textField "image_args".toList [], textField "cache_dir".toList [],
    textField "compiler".toList "gcc".toList, textField "chrome_src".toList [], textField "build".toList []]

def globalFields : List FieldSpec :=
  [textField "name".toList [], textField "board".toList [], listField "remote".toList,
    booleanField "rerun_if_failed".toList false, booleanField "rm_chroot_tmp".toList false, listField "email".toList,
    booleanField "rerun".toList false, booleanField "same_specs".toList true, booleanField "same_machine".toList false,
    booleanField "use_file_locks".toList false, integerField "iterations".toList 1, textField "chromeos_root".toList [],
    textField "logging_level".toList "average".toList, integerField "acquire_timeout".toList 0,
    textField "perf_args".toList [], textField "cache_dir".toList [], booleanField "cache_only".toList false,
    booleanField "no_email".toList false, booleanField "json_report".toList false,
    booleanField "show_all_results".toList false, textField "share_cache".toList [], textField "results_dir".toList [],
    textField "locks_dir".toList [], textField "chrome_src".toList [], integerField "retries".toList 0]

def fields : SettingsType → List FieldSpec
  | .global => globalFields
  | .label => labelFields
  | .benchmark => benchmarkFields

def typeName : SettingsType → Text
  | .global => "global".toList
  | .label => "label".toList
  | .benchmark => "benchmark".toList

def lower (text : Text) : Text := text.map Char.toLower

-- Field._Parse of each class.
def FieldKind.parse : FieldKind → Text → Option Value
  | .text, value => some (.text value)
  | .boolean, value =>
      if lower value == "true".toList then some (.boolean true)
      else if lower value == "false".toList then some (.boolean false)
      else none
  | .integer, value => (parseInt value).map .integer
  | .list, value => some (.list (split value))

def boolInt (b : Bool) : Int := if b then 1 else 0

-- The += of Field.Append. The sum of two booleans is an integer.
def add : Option Value → Value → Option Value
  | some (.text first), .text second => some (.text (first ++ second))
  | some (.boolean first), .boolean second => some (.integer (boolInt first + boolInt second))
  | some (.integer first), .boolean second => some (.integer (first + boolInt second))
  | some (.integer first), .integer second => some (.integer (first + second))
  | some (.list first), .list second => some (.list (first ++ second))
  | none, .list second => some (.list second)
  | _, _ => none

def Value.getString : Value → Text
  | .text content => content
  | .boolean true => "True".toList
  | .boolean false => "False".toList
  | .integer n => strInt n
  | .list words => joined words

-- values has the fields that are assigned; the others have their defaults.
structure Settings where
  name : Text
  settingsType : SettingsType
  values : Text → Option Value

namespace Settings

def new (name : Text) (settingsType : SettingsType) : Settings := ⟨name, settingsType, fun _ => none⟩

def spec (settings : Settings) (name : Text) : Option FieldSpec :=
  (fields settings.settingsType).find? fun spec => spec.name == name

def assign (settings : Settings) (name : Text) (value : Value) : Settings :=
  { settings with values := Function.update settings.values name (some value) }

def setField (settings : Settings) (append : Bool) (name value : Text) : Option Settings :=
  (settings.spec name).bind fun spec => (spec.kind.parse value).bind fun parsed =>
    if append then (add ((settings.values name).or spec.default) parsed).map (settings.assign name)
    else some (settings.assign name parsed)

def getString (settings : Settings) (name : Text) : Text :=
  (((settings.values name).or ((settings.spec name).bind FieldSpec.default)).map Value.getString).getD []

def inherit (parent settings : Settings) : Settings :=
  { settings with
    values := fun name => (settings.values name).or
      (if (settings.spec name).isSome && (parent.spec name).isSome then parent.values name else none) }

def validate (settings : Settings) : Bool :=
  (fields settings.settingsType).all fun spec => (settings.values spec.name).isSome || !spec.required

end Settings

-- SettingsFactory.GetSettings.
def getSettings (name settingsType : Text) : Option Settings :=
  if settingsType == typeName .label || settingsType.isEmpty then some (Settings.new name .label)
  else if settingsType == typeName .global then some (Settings.new name .global)
  else if settingsType == typeName .benchmark then some (Settings.new name .benchmark)
  else none

def isWordChar (c : Char) : Bool := c.isAlphanum || c == '_'

def isNameChar (c : Char) : Bool := isWordChar c || c == '.' || c == '-'

-- The second half of _OPEN_SETTINGS_RE: \s*([\w.-]+)\s*\x7b.
def openName (text : Text) : Option Text :=
  let name := (lstrip text).takeWhile isNameChar
  if !name.isEmpty && (lstrip ((lstrip text).dropWhile isNameChar)).head? == some '\x7b' then some name else none

-- _OPEN_SETTINGS_RE: the type with its colon is tried first; a match without it has the
-- type ''.
def openSettings (line : Text) : Option (Text × Text) :=
  let typed := line.takeWhile isNameChar
  let withType :=
    match line.dropWhile isNameChar with
    | ':' :: rest => if typed.isEmpty then none else (openName rest).map fun name => (typed, name)
    | _ => none
  withType.or ((openName line).map fun name => ([], name))

def colonValue (text : Text) : Option Text :=
  match lstrip text with
  | ':' :: rest => some ((lstrip rest).takeWhile fun c => c != '\n')
  | _ => none

-- (?:\.(\S+))?\s*:\s*(.*) after the name: \S+ takes as much as it can, so that the colon
-- is the first after it or else the last in it.
def fieldRest : Text → Option Text
  | '.' :: rest =>
      let solid := word rest
      let after := rest.drop solid.length
      if solid.isEmpty then none
      else
        (colonValue after).or
          (match (solid.reverse.takeWhile fun c => c != ':').reverse, solid.reverse.dropWhile fun c => c != ':' with
          | last, ':' :: _ :: _ => some ((lstrip (last ++ after)).takeWhile fun c => c != '\n')
          | _, _ => none)
  | text => colonValue text

structure ParsedField where
  append : Bool
  name : Text
  value : Text
deriving DecidableEq

-- _FIELD_VALUE_RE.
def fieldValue (line : Text) : Option ParsedField :=
  let append := line.head? == some '+'
  let text := lstrip (if append then line.tail else line)
  let name := text.takeWhile isWordChar
  if name.isEmpty then none
  else (fieldRest (text.dropWhile isWordChar)).map fun value => ⟨append, name, value⟩

def stripComment (line : Text) : Text :=
  if line.contains '#' then (line.takeWhile fun c => c != '#') ++ line.getLast?.toList else line

-- The loops of _Parse and _ParseSettings over the same reader; block is the settings
-- that _ParseSettings is filling.
structure Parser where
  global : Settings
  settings : List Settings
  block : Option Settings

namespace Parser

def start : Parser := ⟨Settings.new (typeName .global) .global, [], none⟩

def topLine (parser : Parser) (line : Text) : Option Parser :=
  match openSettings line with
  | some (settingsType, name) => (getSettings name settingsType).map fun block => { parser with block := some block }
  | none => (fieldValue line).bind fun field =>
      (parser.global.setField field.append field.name field.value).map fun global => { parser with global := global }

def close (parser : Parser) (block : Settings) : Option Parser :=
  if parser.settings.any fun other => other.name == block.name then none
  else some { parser with settings := parser.settings ++ [block], block := none }

-- Any other line in a block is passed over.
def blockLine (parser : Parser) (block : Settings) (line : Text) : Option Parser :=
  match fieldValue line with
  | some field => (block.setField field.append field.name field.value).map fun block => { parser with block := some block }
  | none => if line.head? == some '\x7d' then parser.close block else some parser

def nextLine (parser : Parser) (current : Text) : Option Parser :=
  let line := strip (stripComment current)
  if line.isEmpty then some parser
  else
    match parser.block with
    | none => parser.topLine line
    | some block => parser.blockLine block line

end Parser

structure Experiment where
  global : Settings
  settings : List Settings

def parse (text : Text) : Option Experiment :=
  ((readlines text).foldlM Parser.nextLine Parser.start).bind fun parser =>
    if parser.block.isSome then none
    else
      let settings := parser.settings.map parser.global.inherit
      if parser.global.validate && settings.all Settings.validate then some ⟨parser.global, settings⟩ else none

-- The order in which Python goes through a dictionary, os.path.realpath with expanduser
-- (of a path whose directories have no newline in their names), and GetXbuddyPath.
structure Environment where
  order : List FieldSpec → List FieldSpec
  order_perm : ∀ specs, (order specs).Perm specs
  realpath : Text → Text
  realpath_line : ∀ path, '\n' ∉ path → '\n' ∉ realpath path
  getXbuddyPath : Text → Text → Text → Text → Text × Text

def fieldLine (name : Text) (value : Value) : Text := name ++ ':' :: ' ' :: value.getString

def chromeosImage : Text := "chromeos_image".toList

def buildField : Text := "build".toList

def autotestPath : Text := "autotest_path".toList

def actualImage (path : Text) : Text := "\t#actual_image: ".toList ++ path

namespace Settings

def assigned (environment : Environment) (settings : Settings) : List (Text × Value) :=
  (environment.order (fields settings.settingsType)).filterMap fun spec =>
    (settings.values spec.name).map fun value => (spec.name, value)

def imageLines (environment : Environment) (value : Value) : List Text :=
  if environment.realpath value.getString == value.getString then []
  else [actualImage (environment.realpath value.getString)]

def buildLines (environment : Environment) (board : Text) (settings : Settings) (value : Value) : List Text :=
  let autotest := ((settings.values autotestPath).map Value.getString).getD []
  let paths := environment.getXbuddyPath value.getString autotest board (settings.getString "chromeos_root".toList)
  actualImage paths.1 ::
    (if (settings.values autotestPath).isSome then [] else ["\t#actual_autotest_path: ".toList ++ paths.2])

def blockFieldLines (environment : Environment) (board : Text) (settings : Settings) (entry : Text × Value) : List Text :=
  ('\t' :: fieldLine entry.1 entry.2) ::
    ((if entry.1 == chromeosImage then imageLines environment entry.2 else []) ++
      (if entry.1 == buildField then settings.buildLines environment board entry.2 else []))

def header (settings : Settings) : Text := typeName settings.settingsType ++ ':' :: ' ' :: settings.name ++ [' ', '\x7b']

def blockLines (environment : Environment) (board : Text) (settings : Settings) : List Text :=
  settings.header :: (settings.assigned environment).flatMap (settings.blockFieldLines environment board) ++ [['\x7d'], []]

end Settings

namespace Experiment

def canonicalLines (environment : Environment) (experiment : Experiment) : List Text :=
  (experiment.global.assigned environment).map (fun entry => fieldLine entry.1 entry.2) ++ [] ::
    (experiment.settings.filter fun settings => settings.settingsType != .global).flatMap
      (Settings.blockLines environment (experiment.global.getString "board".toList))

def canonicalize (environment : Environment) (experiment : Experiment) : Text :=
  (experiment.canonicalLines environment).flatMap fun line => line ++ ['\n']

end Experiment

end ToolchainUtils.Crosperf.ExperimentFile

import ContractAbi.Arguments.Text
import ContractAbi.Command.Exit
import ContractAbi.Command.Report
import ContractAbi.Json.Parser
import ContractAbi.Stream.Reader

/-!
# Running a command

A command is a function from its options and the standard input to what it
prints and how it ends.  What was printed before a failure stays printed.
-/

namespace ContractAbi

inductive Ending where
  | success
  | failure (failure : Failure)
  /-- It does not: these bytes are printed again and again. -/
  | endless (output : Bytes)
deriving DecidableEq, Repr, Inhabited

structure Outcome where
  output : Bytes
  ending : Ending
deriving DecidableEq, Repr, Inhabited

namespace Command

/-- The result of a step that can fail before anything is printed. -/
abbrev Step := Except Failure

def parseType (flag text : String) : Step TypeExpr :=
  (TypeExpr.parse text).mapError (Failure.ofType flag)

def parseJson (flag text : String) : Step Json :=
  match Json.parse? text with
  | some json => .ok json
  | none => .error (.ofUsage (flag ++ " is not valid JSON"))

def readValue (flag : String) (type : TypeExpr) (json : Json) : Step Value :=
  (type.read json).mapError (Failure.ofMismatch flag)

/-- The two sides of the first equals sign. -/
def splitAtEquals? : List Char → Option (List Char × List Char)
  | [] => none
  | character :: text =>
    if character = '=' then some ([], text)
    else (splitAtEquals? text).map fun (left, right) => (character :: left, right)

def splitTyped (flag input : String) : Step (String × String) :=
  match splitAtEquals? input.toList with
  | some (type, json) => .ok (String.ofList type, String.ofList json)
  | none => .error (.ofUsage (flag ++ " expects TYPE=JSON, got `" ++ input ++ "`"))

def parseTyped (flag input : String) : Step (TypeExpr × Json) := do
  let (type, json) ← splitTyped flag input
  return (← parseType flag type, ← parseJson flag json)

def parseArgument (flag input : String) : Step Value := do
  let (type, json) ← parseTyped flag input
  readValue flag type json

/-- The text of the positional argument, or of the standard input if it is a hyphen. -/
def readText (data : String) (input : Bytes) : Step (List Char) :=
  if data = "-" then
    match Utf8.decode input with
    | .ok text => .ok (Text.trim text)
    | .error _ =>
      .error (.ofIo "failed reading stdin" ⟨.other, "stream did not contain valid UTF-8"⟩)
  else .ok (Text.trim data.toList)

/-- The bytes of a hexadecimal text, which may begin with `0x`. -/
def decodeHex (text : List Char) : Step Bytes :=
  let digits := match text with
    | '0' :: 'x' :: digits => digits
    | digits => digits
  (Hex.decode digits).mapError fun fault =>
    .ofUsage ("input is not valid hex: " ++ fault.message)

def contextOf (topLevel : Bool) : Context :=
  if topLevel then .topLevel else .nested

def outcomeOf : Step Bytes → Outcome
  | .ok output => ⟨output, .success⟩
  | .error failure => ⟨[], .failure failure⟩

def runEncode (options : EncodeOptions) (format : OutputFormat) : Step Bytes := do
  let type ← parseType "--type" options.type
  let json ← parseJson "--value" options.value
  let value ← readValue "--value" type json
  let context := contextOf options.topLevel
  let bytes ← (value.encode context).mapError (Failure.ofCodec "encode failed")
  return Report.encoded type context bytes format

/-- Decode bytes that hold one value and nothing else. -/
def decodeWhole (maxLength : Nat) (type : TypeExpr) (context : Context) (data : Bytes) :
    Except CodecError Value :=
  match context with
  | .topLevel =>
    match type.target.decodePayload maxLength data with
    | (value, none) => .ok value
    | (_, some error) => .error error
  | .nested =>
    let decoded := type.target.decode maxLength .nested data
    match decoded.error, decoded.rest with
    | some error, _ => .error error
    | none, [] => .ok decoded.target
    | none, rest => .error (.trailingBytes rest.length)

def decodeText (options : DecodeOptions) (type : TypeExpr) (format : OutputFormat)
    (input : Bytes) : Step Bytes := do
  let data ← decodeHex (← readText options.data input)
  let context := contextOf options.topLevel
  let value ← (decodeWhole options.maxLength type context data).mapError
    (Failure.ofCodec "decode failed")
  return Report.decoded type context value format

def inputReader (maxLength : Nat) (input : Bytes) : Reader :=
  { source := { data := input }, maxLength }

/-- The values on a stream, and how the stream ends: at the end of a value, with
an error, or never, since the last value takes no bytes and is read for ever. -/
inductive StreamEnd where
  | closed
  | failed (error : CodecError)
  | endless (value : Value)

def unread (reader : Reader) : Nat :=
  reader.buffer.length + reader.source.data.length

def readValues (target : Value) (reader : Reader) : List Value × StreamEnd :=
  let outcome := reader.readNested target
  match outcome.error with
  | some .streamClosed => ([], .closed)
  | some error => ([], .failed error)
  | none =>
    if unread outcome.reader < unread reader then
      let (values, ending) := readValues target outcome.reader
      (outcome.target :: values, ending)
    else ([], .endless outcome.target)
termination_by unread reader

/-- Decode the standard input as bytes: at top level one value, else one value
after the other, each printed on its own. -/
def decodeStream (options : DecodeOptions) (type : TypeExpr) (format : OutputFormat)
    (input : Bytes) : Outcome :=
  let reader := inputReader options.maxLength input
  let report := fun context value => Report.decoded type context value format
  if options.topLevel then
    let outcome := reader.readTopLevel type.target
    match outcome.error with
    | some error => ⟨[], .failure (.ofCodec "decode failed" error)⟩
    | none => ⟨report .topLevel outcome.target, .success⟩
  else
    let (values, ending) := readValues type.target reader
    let output := values.flatMap (report .nested)
    match ending with
    | .closed => ⟨output, .success⟩
    | .failed error =>
      ⟨output, .failure
        (.ofCodec ("decode failed after " ++ toString values.length ++ " values") error)⟩
    | .endless value => ⟨output, .endless (report .nested value)⟩

def runDecode (options : DecodeOptions) (format : OutputFormat) (input : Bytes) : Outcome :=
  match parseType "--type" options.type with
  | .error failure => ⟨[], .failure failure⟩
  | .ok type =>
    if !options.binary then outcomeOf (decodeText options type format input)
    else if options.data != "-" then
      ⟨[], .failure (.ofUsage "--binary reads from stdin; drop the DATA argument")⟩
    else decodeStream options type format input

/-- The trailing optional argument, which null leaves out. -/
def optionalArgument (input : String) : Step Argument := do
  let (type, json) ← parseTyped "--optional" input
  match json with
  | .null => return .absent
  | _ => return .present (.single (← readValue "--optional" type json))

def variadicArgument (input : String) : Step Argument := do
  let (type, json) ← parseTyped "--variadic" input
  match json with
  | .array items =>
    let values ← items.mapM (readValue "--variadic" type)
    return .variadic (values.map .single) none
  | _ => throw (.ofUsage "--variadic expects a JSON array")

def runSerialize (options : SerializeOptions) (format : OutputFormat) : Step Bytes := do
  let singles ← options.arguments.mapM fun input =>
    return Argument.single (← parseArgument "--arg" input)
  let optional ← options.optional.toList.mapM optionalArgument
  let variadic ← options.variadic.toList.mapM variadicArgument
  let parts ← (ContractAbi.serialize (singles ++ optional ++ variadic)).mapError
    (Failure.ofArguments "serialize failed")
  return Report.serialized (joinParts options.separator parts) parts.length format

mutual

def collapse : Argument → Value
  | .single value => value
  | .multi items => .list (collapseItems items)
  | .absent => .absent
  | .present content => .present (collapse content)
  | .variadic items _ => .list (collapseItems items)

def collapseItems : List Argument → List Value
  | [] => []
  | item :: items => collapse item :: collapseItems items

end

def targetsOf (types : List TypeExpr) (optional variadic : Option TypeExpr) : List Argument :=
  types.map (fun type => .single type.target) ++
    optional.toList.map (fun type => .present (.single type.target)) ++
    variadic.toList.map (fun type => .variadic [] (some (.single type.target)))

def labelsOf (types : List TypeExpr) (optional variadic : Option TypeExpr) : List String :=
  types.map TypeExpr.toText ++ optional.toList.map (fun type => "optional " ++ type.toText) ++
    variadic.toList.map (fun type => "variadic " ++ type.toText)

def runDeserialize (options : DeserializeOptions) (format : OutputFormat) (input : Bytes) :
    Step Bytes := do
  let types ← options.types.mapM (parseType "--type")
  let optional ← options.optional.mapM (parseType "--optional")
  let variadic ← options.variadic.mapM (parseType "--variadic")
  let data ← readText options.data input
  let targets := targetsOf types optional variadic
  match deserializeText options.separator options.maxLength targets (String.ofList data) with
  | (_, some error) => throw (.ofArguments "deserialize failed" error)
  | (outputs, none) =>
    let labels := labelsOf types optional variadic
    return Report.arguments (labels.zip (outputs.map collapse)) format

def versionNumber : String := "0.1.0"

/-- The version, or all constants of the format. -/
def versionText (extended : Bool) : Bytes :=
  if extended then
    ["name: vmabi", "version: " ++ versionNumber,
      "length_prefix: " ++ toString lengthPrefixSize ++ " bytes, big-endian",
      "address_length: " ++ toString addressLength,
      "default_max_length: " ++ toString defaultMaxLength,
      "parts_separator: " ++ defaultSeparator].flatMap Report.textLine
  else Report.textLine ("vmabi " ++ versionNumber)

end Command

def Invocation.run (invocation : Invocation) (input : Bytes) : Outcome :=
  match invocation.command with
  | .encode options => Command.outcomeOf (Command.runEncode options invocation.format)
  | .decode options => Command.runDecode options invocation.format input
  | .serialize options => Command.outcomeOf (Command.runSerialize options invocation.format)
  | .deserialize options =>
    Command.outcomeOf (Command.runDeserialize options invocation.format input)
  | .version extended => ⟨Command.versionText extended, .success⟩

end ContractAbi

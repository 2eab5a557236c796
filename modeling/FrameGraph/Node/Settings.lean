import FrameGraph.Node.Kind
import FrameGraph.Value.Entries

/-!
# Settings of nodes

Every kind of node has defaults for its settings and rules that the settings must keep. A setting
that is given replaces the default and settings of other names are kept as they are. The rules are
checked in order, on values of any type: a value that cannot be compared fails as ill-typed.
-/

namespace FrameGraph

namespace NodeKind

/-- A decimal fraction as a setting. -/
def decimal (digits : Nat) (exponent : Int) : Value := .float (.ofDecimal false digits exponent)

/-- The defaults of a kind; a sink's stream is named after its node. -/
def defaults (k : NodeKind) (id : Nat) : Entries :=
  match k with
  | rawInput =>
    [(.text "input_type", .text "camera"), (.text "file_path", .text ""),
      (.text "bayer_pattern", .text "rggb"), (.text "width", .int 4000),
      (.text "height", .int 3000), (.text "bit_depth", .int 12), (.text "fps", decimal 30 0)]
  | demosaic =>
    [(.text "classic_method", .text "bilinear"), (.text "output_format", .text "rgb")]
  | toneMapping =>
    [(.text "mapping_method", .text "reinhard"), (.text "exposure", decimal 12 (-1)),
      (.text "gamma", decimal 22 (-1)), (.text "white_point", decimal 1 0),
      (.text "black_point", decimal 0 0)]
  | frameSync =>
    [(.text "sync_threshold_ms", decimal 10 0), (.text "sync_attempts", .int (-1))]
  | hostOutput => [(.text "stream_name", .text ("host_out_" ++ toString id))]
  | _ => []

/-- The settings of a new node. A tone mapping keeps the given ones in front and adds its defaults
behind; the other kinds put their defaults in front. -/
def settings (k : NodeKind) (id : Nat) (given : Entries) : Entries :=
  match k with
  | toneMapping => given.orDefaults (k.defaults id)
  | _ => given.withDefaults (k.defaults id)

end NodeKind

/-! ## Rules -/

namespace Settings

/-- A setting; every rule is about one that has a default. -/
def setting (s : Entries) (name : String) : Value := (s.field? name).getD .null

def choices (names : List String) : List Value := names.map .text

def refuseIf (condition : Bool) (rule : Refusal) : Except Fault Unit :=
  if condition then .error (.refused rule) else .ok ()

/-- Refuses a value where a condition holds; `name` shows messages. -/
def refuseValue (name : MessageText) (condition : Bool)
    (rule : String → Refusal) (v : Value) : Except Fault Unit :=
  if condition then do .error (.refused (rule (← v.shown name))) else .ok ()

/-- Whether a value is an integer; truth values are. -/
def isInteger : Value → Bool
  | .int _ => true
  | .bool _ => true
  | _ => false

def zero : Value := .int 0

def checkRawInput (name : MessageText) (s : Entries) : Except Fault Unit := do
  let inputType := setting s "input_type"
  refuseValue name (!inputType.isOneOf (choices ["file", "simulation", "camera"])) .inputType
    inputType
  refuseIf (inputType.equal (.text "file") && !(setting s "file_path").truthy) .filePathMissing
  let pattern := setting s "bayer_pattern"
  refuseValue name (!pattern.isOneOf (choices ["rggb", "grbg", "gbrg", "bggr"])) .bayerPattern
    pattern
  refuseIf (← (setting s "width").le zero) .imageSize
  refuseIf (← (setting s "height").le zero) .imageSize
  let depth := setting s "bit_depth"
  refuseValue name (!depth.isOneOf ([8, 10, 12, 14, 16].map Value.int)) .bitDepth depth
  refuseIf (← (setting s "fps").le zero) .frameRate

def checkDemosaic (name : MessageText) (s : Entries) : Except Fault Unit := do
  let method := setting s "classic_method"
  refuseValue name (!method.isOneOf (choices ["bilinear", "vng", "edge_aware"])) .demosaicMethod
    method
  let format := setting s "output_format"
  refuseValue name (!format.isOneOf (choices ["rgb", "bgr"])) .outputFormat format

def checkToneMapping (name : MessageText) (s : Entries) : Except Fault Unit := do
  let method := setting s "mapping_method"
  refuseValue name (!method.isOneOf (choices ["reinhard", "gamma", "linear"])) .mappingMethod method
  refuseIf (← (setting s "gamma").le zero) .gamma
  refuseIf (← (setting s "white_point").le (setting s "black_point")) .whitePoint

def checkFrameSync (name : MessageText) (s : Entries) : Except Fault Unit := do
  refuseIf (← (setting s "sync_threshold_ms").lt zero) .syncThreshold
  let attempts := setting s "sync_attempts"
  let tooSmall ← if isInteger attempts then attempts.lt (.int (-1)) else .ok true
  refuseValue name tooSmall .syncAttempts attempts

def checkHostOutput (s : Entries) : Except Fault Unit :=
  refuseIf (!(setting s "stream_name").truthy) .streamName

/-- Checks settings against the rules of a kind; `name` shows messages. -/
def check (kind : NodeKind) (name : MessageText) (s : Entries) : Except Fault Unit :=
  match kind with
  | .rawInput => checkRawInput name s
  | .demosaic => checkDemosaic name s
  | .toneMapping => checkToneMapping name s
  | .frameSync => checkFrameSync name s
  | .hostOutput => checkHostOutput s
  | _ => .ok ()

end Settings

end FrameGraph

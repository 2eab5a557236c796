import FrameGraph.CommandLine.Options
import FrameGraph.Description
import FrameGraph.Yaml.Load
import FrameGraph.Yaml.Print

/-!
# Reports

A description is read, its pipeline built and shown: the pipeline, its nodes by alias, the
connections of every node, and all of it as a document, which is printed or written to a file.

* `loadDescription`: the value of a file, and an empty one if it has none.
* `Report.ofOptions`: what the options make the program print and write.
-/

namespace FrameGraph

/-! ## Documents -/

/-- The value of a file's content. A file that cannot be read, or whose value counts as false, has
an empty one. -/
def loadDescription (content : Option (List UInt8)) : Value :=
  let value := do
    let text ← FileTree.decode? (← content)
    (Yaml.load (String.ofList (FileTree.unifyLineEnds text.toList))).toOption
  (value.getD .null).orElse (.dict [])

namespace OutputView

def value (o : OutputView) : Value :=
  .dict [(.text "group", .text o.label.group), (.text "name", .text o.label.name),
    (.text "type", .text o.kind)]

end OutputView

namespace InputView

def value (i : InputView) : Value :=
  .dict [(.text "group", .text i.label.group), (.text "name", .text i.label.name),
    (.text "type", .text i.kind), (.text "blocking", i.blocking),
    (.text "queue_size", .number i.queueSize), (.text "wait_for_message", i.wait)]

end InputView

namespace NodeView

def value (n : NodeView) : Value :=
  .dict [(.text "id", .int n.id), (.text "name", .text n.name), (.text "node_type", .text n.role),
    (.text "config", .dict n.settings), (.text "outputs", .list (n.outputs.map OutputView.value)),
    (.text "inputs", .list (n.inputs.map InputView.value))]

end NodeView

namespace PipelineView

def value (p : PipelineView) : Value :=
  .dict [(.text "pipeline_id", p.name),
    (.text "nodes", .dict (p.nodes.map fun n => (.int n.id, n.value))),
    (.text "connections", .list (p.connections.map fun c =>
      .dict ((Connection.fieldNames.map .text).zip (ConnectionRecord.ofConnection c).parts))),
    (.text "assets", .list (p.assets.map .text))]

end PipelineView

namespace CommandLine

/-! ## What is printed -/

/-- The lines about a node: its alias and its outputs' connections. -/
def nodeLines (g : Graph) (entry : Value × Ref .node) : List (Except Fault String) :=
  let connections := (g.portsOf entry.2 .output).flatMap fun o =>
    match g.connectionsOf o with
    | .ok connections => connections
    | .error _ => []
  (g.shown entry.1).map (fun name => s!"  {name}: {g.nodeText entry.2}") ::
    connections.map fun c => .ok s!"    {c.text}"

def builtLines (g : Graph) (b : Description.Built) : List (Except Fault String) :=
  (g.pipelineText b.pipeline).map (fun text => s!"✅ {text}") :: b.nodes.flatMap (nodeLines g)

def printLines (lines : List String) : String := String.join (lines.map (· ++ "\n"))

/-- What is printed of some lines: those before the first one that cannot be shown, and what is
wrong with that one. -/
def printShown : List (Except Fault String) → String × Option Fault
  | [] => ("", none)
  | .error fault :: _ => ("", some fault)
  | .ok line :: rest =>
    let (printed, fault) := printShown rest
    (printLines [line] ++ printed, fault)

/-- What remains to be done after something was printed. -/
inductive Ending where
  | exit (code : Nat)
  | abort (cause : Fault)
  /-- A document to be written to a file, after which the program says so and ends well. -/
  | write (path document : String)
  deriving Repr

/-- What the program prints, and how it ends. -/
structure Report where
  printed : String
  ending : Ending
  deriving Repr

namespace Report

def writtenLine (path : String) : String := printLines [s!"📁 描述已写入: {path}"]

/-- Ends a report with the document, which is printed as well unless a file is named for it. -/
def withDocument (o : Options) (printed : String) : Except Fault String → Report
  | .error fault => ⟨printed, .abort fault⟩
  | .ok document =>
    if o.output = "" then ⟨printed ++ printLines [document], .exit 0⟩
    else ⟨printed, .write o.output document⟩

/-- Shows the pipeline of a description, and then the document of it. What cannot be shown ends the
program. -/
def ofBuilt (o : Options) (heading : String) (g : Graph) (b : Description.Built) : Report :=
  match printShown (builtLines g b) with
  | (shown, some fault) => ⟨heading ++ shown, .abort fault⟩
  | (shown, none) =>
    withDocument o (heading ++ shown) (Yaml.render (g.pipelineView b.pipeline).value)

/-- Builds and shows the pipeline of a description. Bad values are reported; what else is wrong with
a description ends the program. -/
def ofDescription (o : Options) (heading : String) (description : Value) : Report :=
  match (Description.build [] description).run {} with
  | .ok b w => ofBuilt o heading w.graph b
  | .error fault _ =>
    if fault.isBadValue then
      ⟨heading ++ printLines [s!"❌ Pipeline构建失败: {fault.badValueText}"], .exit 1⟩
    else ⟨heading, .abort fault⟩

/-- What options make the program print, given the path of the description, whether it leads
anywhere, and the content of the file there. -/
def ofOptions (o : Options) (path : String) (found : Bool) (content : Option (List UInt8)) :
    Report :=
  if !found then ⟨printLines [s!"❌ 配置文件不存在: {path}"], .exit 1⟩
  else
    let heading := printLines [s!"📁 使用配置文件: {path}"]
    let description := loadDescription content
    if !description.truthy then ⟨heading ++ printLines ["❌ 配置加载失败"], .exit 1⟩
    else ofDescription o heading description

end Report

/-! ## Among files -/

/-- The path of the description that options name. A level and a path that were taken away are
missed in this order. -/
def Options.path (o : Options) : Except Fault String :=
  if !o.hasLevel then .error .noMember
  else
    match o.config with
    | some path => .ok path
    | none => .error .wrongType

/-- What options make the program print among files. -/
def Report.among (files : FileTree) (o : Options) : Except Fault Report := do
  let path ← o.path
  return Report.ofOptions o path (← files.contains path) (files.open? path)

/-- What was printed, how the program ended, and the files it left. -/
structure Finished where
  printed : String
  result : Except Fault Nat
  files : FileTree

/-- Runs the program among files. Words that are no options end it with a code of their own. -/
def run (files : FileTree) (args : List String) : Finished :=
  match Options.parse args with
  | .error .help => ⟨"", .ok 0, files⟩
  | .error .misuse => ⟨"", .ok 2, files⟩
  | .ok o =>
    match Report.among files o with
    | .error fault => ⟨"", .error fault, files⟩
    | .ok report =>
      match report.ending with
      | .exit code => ⟨report.printed, .ok code, files⟩
      | .abort fault => ⟨report.printed, .error fault, files⟩
      | .write path document =>
        match files.write path document.toUTF8.toList with
        | .ok files => ⟨report.printed ++ Report.writtenLine path, .ok 0, files⟩
        | .error fault => ⟨report.printed, .error fault, files⟩

end CommandLine

end FrameGraph

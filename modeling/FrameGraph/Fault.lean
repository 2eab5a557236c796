/-!
# What can go wrong

An operation fails for a cause. A refusal is a rule of the graph that a request breaks, and it has a
text for the reader; the other causes are ill-typed or unreadable data, found while the request is
carried out.

* `bind_eq_ok`, `bind_eq_error`: an operation taken apart into its steps, of which all succeed or one
  fails.
-/

namespace FrameGraph

/-- The rules a request can break. Values are given as they are shown in the text. -/
inductive Refusal where
  /-- A queue must hold at least one message. -/
  | queueCapacity (capacity : String)
  /-- A frame has two or three dimensions. -/
  | frameDimensions (count : Nat)
  /-- A frame in a Bayer format names its pattern. -/
  | bayerRequired
  | portExists (port : String)
  | portInGroup (port group : String)
  | groupExists (group : String)
  | groupOverPort (group : String)
  /-- The output given to a pipeline's `link` belongs to another pipeline or to none. -/
  | foreignOutput (output pipeline : String)
  | incompatible (output input : String)
  | nodeRemoved (name : String) (id : Nat) (pipeline : String)
  | portUnregistered (port name : String) (id : Nat)
  | connectionExists (connection : String)
  | portSpec (spec : String)
  | endpointSpec (spec : String)
  | unknownNodeType (type : String)
  | unknownAlias (source target : String)
  | noOutputGroup (name : String) (id : Nat) (group : String)
  | noOutput (name : String) (id : Nat) (port : String)
  | noInputGroup (name : String) (id : Nat) (group : String)
  | noInput (name : String) (id : Nat) (port : String)
  | notBoolean (key value : String)
  | notInteger (value : String)
  | inputType (value : String)
  | filePathMissing
  | bayerPattern (value : String)
  | imageSize
  | bitDepth (value : String)
  | frameRate
  | demosaicMethod (value : String)
  | outputFormat (value : String)
  | mappingMethod (value : String)
  | gamma
  | whitePoint
  | syncThreshold
  | syncAttempts (value : String)
  | streamName
  deriving DecidableEq, Repr

def Refusal.message : Refusal → String
  | .queueCapacity n => s!"队列容量必须为正整数，当前为{n}"
  | .frameDimensions n => s!"数据维度必须是2或3，当前为{n}"
  | .bayerRequired => "RAW Bayer格式必须指定bayer_pattern"
  | .portExists p => s!"端口{p}已存在"
  | .portInGroup p g => s!"端口{p}与端口组{g}冲突"
  | .groupExists g => s!"端口组{g}已存在"
  | .groupOverPort g => s!"端口组{g}与已注册的端口冲突"
  | .foreignOutput o p => s!"输出端口{o}不属于Pipeline {p}"
  | .incompatible o i => s!"无法连接: {o} -> {i}"
  | .nodeRemoved n id p => s!"节点{n}({id})不在Pipeline {p}中"
  | .portUnregistered p n id => s!"端口{p}未在节点{n}({id})上注册"
  | .connectionExists c => s!"连接已存在: {c}"
  | .portSpec s => s!"无效的端口描述: {s}"
  | .endpointSpec s => s!"无效的连接端点: {s}"
  | .unknownNodeType t => s!"未知的节点类型: {t}"
  | .unknownAlias s t => s!"连接引用了不存在的节点: {s} -> {t}"
  | .noOutputGroup n id g => s!"节点{n}({id})没有输出端口组{g}"
  | .noOutput n id p => s!"节点{n}({id})没有输出端口{p}"
  | .noInputGroup n id g => s!"节点{n}({id})没有输入端口组{g}"
  | .noInput n id p => s!"节点{n}({id})没有输入端口{p}"
  | .notBoolean k v => s!"{k}必须为布尔值，当前为{v}"
  | .notInteger v => s!"queue_size必须为整数，当前为{v}"
  | .inputType v => s!"不支持的输入类型: {v}"
  | .filePathMissing => "文件输入模式必须指定file_path"
  | .bayerPattern v => s!"不支持的Bayer模式: {v}"
  | .imageSize => "图像尺寸必须大于0"
  | .bitDepth v => s!"不支持的位深度: {v}"
  | .frameRate => "帧率必须大于0"
  | .demosaicMethod v => s!"不支持的经典方法: {v}"
  | .outputFormat v => s!"不支持的输出格式: {v}"
  | .mappingMethod v => s!"Unsupported mapping method: {v}"
  | .gamma => "gamma must be positive"
  | .whitePoint => "white_point must be greater than black_point"
  | .syncThreshold => "同步阈值不能为负数"
  | .syncAttempts v => s!"无效的同步尝试次数: {v}"
  | .streamName => "stream_name不能为空"

/-- The stages at which a document can turn out to be unreadable. -/
inductive DocumentError where
  | character
  /-- A text that no token starts with, or an unfinished token. -/
  | token
  /-- Tokens in an order that no document has. -/
  | structural
  /-- An alias without an anchor, or a second document. -/
  | composition
  /-- A tag or key without a value of that kind. -/
  | construction
  deriving DecidableEq, Repr

inductive Fault where
  | refused (rule : Refusal)
  /-- The node that owned a port no longer exists. -/
  | orphanedPort (port : String)
  /-- The pipeline that owned a node no longer exists. -/
  | orphanedNode (id : Nat)
  /-- No message arrived in time. -/
  | timedOut (queue : String)
  /-- A look-up by key found nothing. -/
  | missingKey (key : String)
  /-- No asset has this key. -/
  | missingResource (key : String)
  /-- A value of a type that does not support the operation. -/
  | wrongType
  /-- A value of a type that lacks the requested member. -/
  | noMember
  /-- A value of the right type that cannot be converted. -/
  | badData (text : String)
  /-- A number outside the range of its destination. -/
  | overflow
  | outOfMemory
  | indexOutOfRange
  /-- A word that stands for no truth value. -/
  | notATruthWord
  | fileNotFound
  | isDirectory
  | notDirectory
  /-- A path or a part of one that is longer than a file system allows. -/
  | nameTooLong
  /-- Values nested too deeply, or without end. -/
  | tooDeep
  | frozen
  /-- An image that a colour conversion does not accept. -/
  | conversion
  | document (error : DocumentError)
  deriving DecidableEq, Repr

namespace Fault

/-- The text of a failure, where it has one. -/
def message? : Fault → Option String
  | .refused r => some r.message
  | .orphanedPort p => some s!"端口{p}所属的节点已被销毁"
  | .orphanedNode id => some s!"节点{id}所属的Pipeline已被销毁"
  | .timedOut q => some s!"队列{q}等待消息超时"
  | .missingKey k => some k
  | .missingResource k => some s!"资源不存在: {k}"
  | _ => none

/-- An integer with too many digits to be written. -/
def tooManyDigits : Fault :=
  .badData ("Exceeds the limit (4300 digits) for integer string conversion; " ++
    "use sys.set_int_max_str_digits() to increase the limit")

/-- Whether the cause is a bad value, which a caller that builds a graph from a description is ready
to report; the other causes are faults of the description's shape. -/
def isBadValue : Fault → Bool
  | .refused _ => true
  | .badData _ => true
  | _ => false

/-- The text of a bad value. -/
def badValueText : Fault → String
  | .refused r => r.message
  | .badData text => text
  | _ => ""

end Fault

theorem bind_eq_ok {β γ : Type} {x : Except Fault β} {f : β → Except Fault γ} {c : γ} :
    x >>= f = .ok c ↔ ∃ b, x = .ok b ∧ f b = .ok c := by
  cases x with
  | ok b => exact ⟨fun h => ⟨b, rfl, h⟩, fun ⟨_, hb, h⟩ => by cases hb; exact h⟩
  | error cause => exact ⟨nofun, fun ⟨_, hb, _⟩ => nomatch hb⟩

theorem bind_eq_error {β γ : Type} {x : Except Fault β} {f : β → Except Fault γ} {fault : Fault} :
    x >>= f = .error fault ↔ x = .error fault ∨ ∃ b, x = .ok b ∧ f b = .error fault := by
  cases x with
  | ok b => exact ⟨fun h => .inr ⟨b, rfl, h⟩, fun | .inr ⟨_, hb, h⟩ => by cases hb; exact h⟩
  | error cause => exact ⟨fun h => .inl (by cases h; rfl), fun | .inl h => by cases h; rfl⟩

end FrameGraph

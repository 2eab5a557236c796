/-!
# Journal

The records that operations leave for an operator, each with a level, the part of the graph it comes
from, and a text.
-/

namespace FrameGraph

inductive Level where
  | debug
  | info
  | warning
  | error
  deriving DecidableEq, Repr

def Level.name : Level → String
  | .debug => "DEBUG"
  | .info => "INFO"
  | .warning => "WARNING"
  | .error => "ERROR"

/-- The parts of a graph that write records. -/
inductive Origin where
  | pipeline (name : String)
  | ports
  | queues
  | description
  deriving DecidableEq, Repr

/-- The name of the logger a part writes to. -/
def Origin.logger : Origin → String
  | .pipeline name => "Pipeline_" ++ name
  | .ports => "isp_graph.core.port"
  | .queues => "isp_graph.core.message_queue"
  | .description => "isp_graph.config"

structure Record where
  level : Level
  origin : Origin
  text : String
  deriving DecidableEq, Repr

abbrev Journal := List Record

end FrameGraph

import FrameGraph.FileTree
import FrameGraph.Graph.Basic

/-!
# Resources

A resource is an asset, named `asset:` and a key, or a file. A relative key is put behind the
current place in the graph, and the asset is looked for on the shelf of the pipeline and then on
those of its nodes in the order of their creation.

* `Graph.findAsset?`: the first shelf that has a key decides.
-/

namespace FrameGraph

inductive ShelfOwner where
  | pipeline (ref : Ref .pipeline)
  | node (ref : Ref .node)
  | shelf (ref : Ref .shelf)
  deriving DecidableEq

/-- A value that has to be a text. Byte strings have the operations of texts, but on byte strings
only. -/
def Value.asText : Value → Except Fault String
  | .text s => .ok s
  | .bytes _ => .error .wrongType
  | _ => .error .noMember

/-- What is given as the content of an asset: a text is the path of a file that has it. -/
def assetContent (files : FileTree) : Value → Except Fault Value
  | .text path => do return .bytes (← files.read path)
  | v => .ok v

namespace Graph

def shelf (g : Graph) : ShelfOwner → Shelf
  | .pipeline p => (g.pipeline p).shelf
  | .node n => (g.node n).shelf
  | .shelf s => g.shelves.get s

def setShelf (g : Graph) (owner : ShelfOwner) (shelf : Shelf) : Graph :=
  match owner with
  | .pipeline p => g.modifyPipeline p fun pipeline => { pipeline with shelf }
  | .node n => g.modifyNode n fun node => { node with shelf }
  | .shelf s => { g with shelves := g.shelves.set s shelf }

def newShelf (g : Graph) (root : String) : Graph × Ref .shelf :=
  let (shelves, s) := g.shelves.push { root }
  ({ g with shelves }, s)

/-- The shelves that a pipeline looks through, in order. -/
def shelvesOf (g : Graph) (p : Ref .pipeline) : List Shelf :=
  (g.pipeline p).shelf :: (g.pipeline p).nodes.map fun e => (g.node e.2).shelf

/-- The asset under a key on the first shelf that has it. -/
def findAsset? (g : Graph) (p : Ref .pipeline) (key : String) : Option Asset :=
  (g.shelvesOf p).findSome? fun shelf => shelf.get? key

/-- What a resource name that stands for an asset starts with. -/
def assetMark : List Char := ['a', 's', 's', 'e', 't', ':']

/-- The key in a resource name that stands for an asset. -/
def assetKey? (uri : String) : Option String :=
  if assetMark.isPrefixOf uri.toList then some (String.ofList (uri.toList.drop assetMark.length))
  else none

/-- Loads a resource; a relative key is looked for behind `place`. -/
def load (g : Graph) (files : FileTree) (p : Ref .pipeline) (uri place : String) :
    Except Fault (List UInt8) :=
  match assetKey? uri with
  | none => files.read uri
  | some key =>
    let key := if isAbsoluteKey key then key else place ++ key
    match g.findAsset? p key with
    | some asset => .ok asset.data
    | none => .error (.missingResource key)

/-- The place of a node in the graph, behind which its relative keys lie. -/
def placeOf (g : Graph) (n : Ref .node) : String := "/node/" ++ toString (g.node n).id ++ "/"

end Graph

end FrameGraph

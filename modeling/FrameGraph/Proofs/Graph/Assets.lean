import FrameGraph.Proofs.Graph.Frame
import FrameGraph.Proofs.Graph.History

/-!
# Assets and their history

An asset is found under its absolute key, on the shelf of the pipeline or else on the first shelf of
its nodes that has it. What a shelf has under a key is what was last set there and not removed since:
nothing but setting and removing touches a shelf, and a new pipeline or node starts with an empty one
under a root of its own.

* `absoluteKey`: a key behind a place, `Shelf.find?_set`, `Shelf.find?_remove`.
* `held`: what an owner has under an absolute key, as the events of assets give it.
* `KeepsShelves`, `Operation.keepsShelves`: what all other operations do to shelves.
* `AssetRun`: runs with the events of their assets, `AssetRun.shelved`.
* `run_load`: loading is one look-up of one absolute key, in a fixed order.
-/

namespace FrameGraph

/-! ## Keys -/

/-- The key behind a place, unless the key is absolute. -/
def absoluteKey (place key : String) : String := if isAbsoluteKey key then key else place ++ key

theorem isAbsoluteKey_append {place : String} (h : isAbsoluteKey place = true) (key : String) :
    isAbsoluteKey (place ++ key) = true := by
  unfold isAbsoluteKey at h ⊢
  rw [decide_eq_true_eq] at h ⊢
  rw [String.toList_append, List.head?_append, h]
  rfl

theorem isAbsoluteKey_absoluteKey {place : String} (h : isAbsoluteKey place = true)
    (key : String) : isAbsoluteKey (absoluteKey place key) = true := by
  unfold absoluteKey
  split
  · next hkey => exact hkey
  · exact isAbsoluteKey_append h key

theorem absoluteKey_of_isAbsoluteKey {key : String} (h : isAbsoluteKey key = true)
    (place : String) : absoluteKey place key = key := if_pos h

theorem absoluteKey_of_not {key : String} (h : isAbsoluteKey key = false) (place : String) :
    absoluteKey place key = place ++ key := by
  rw [absoluteKey, h]
  rfl

/-! ## Shelves -/

namespace Shelf

theorem find?_set (s : Shelf) (key : String) (data : List UInt8) (k : String) :
    find? k (s.set key data).1.assets =
      if absoluteKey s.root key = k then some ⟨k, data⟩ else find? k s.assets := by
  split
  · next hkey =>
    subst hkey
    exact find?_put_self ⟨s.fullKey key, data⟩ s.assets
  · next hkey => exact find?_put_of_ne ⟨s.fullKey key, data⟩ s.assets hkey

theorem find?_filter_ne (assets : List Asset) (key k : String) :
    find? k (assets.filter fun a => a.key ≠ key) = if key = k then none else find? k assets := by
  induction assets with
  | nil => simp [find?]
  | cons a rest ih =>
    by_cases ha : a.key = key
    · rw [List.filter_cons_of_neg (by simpa using ha), ih]
      by_cases hk : key = k
      · rw [if_pos hk, if_pos hk]
      · have hne : a.key ≠ k := by rwa [ha]
        rw [if_neg hk, if_neg hk, find?, if_neg hne]
    · rw [List.filter_cons_of_pos (by simpa using ha), find?, find?, ih]
      by_cases hk : key = k
      · have hne : a.key ≠ k := by rwa [← hk]
        rw [if_pos hk, if_neg hne, if_pos hk]
      · rw [if_neg hk, if_neg hk]

theorem find?_remove (s : Shelf) (key k : String) :
    find? k (s.remove key).1.assets =
      if absoluteKey s.root key = k then none else find? k s.assets :=
  find?_filter_ne s.assets (s.fullKey key) k

end Shelf

/-! ## Events of assets -/

/-- Data were set under a key of an owner, or what was there was removed. The key need not be
absolute. -/
structure AssetEvent where
  owner : ShelfOwner
  key : String
  data? : Option (List UInt8)

/-- The event concerns the absolute key of an owner whose keys lie behind the root. -/
def AssetEvent.concerns (e : AssetEvent) (owner : ShelfOwner) (root key : String) : Bool :=
  e.owner = owner ∧ absoluteKey root e.key = key

/-- What an owner has under an absolute key: the data that were last set there, if they were not
removed since. -/
def held (es : List AssetEvent) (owner : ShelfOwner) (root key : String) : Option (List UInt8) :=
  (es.reverse.find? fun e => e.concerns owner root key).bind AssetEvent.data?

theorem held_append (es : List AssetEvent) (e : AssetEvent) (owner : ShelfOwner)
    (root key : String) :
    held (es ++ [e]) owner root key =
      if e.concerns owner root key then e.data? else held es owner root key := by
  unfold held
  rw [List.reverse_append, List.reverse_singleton, List.singleton_append, List.find?_cons]
  cases e.concerns owner root key <;> rfl

namespace Graph

variable {g g' g'' : Graph} {owner : ShelfOwner}

/-! ## Owners -/

/-- The owner is a pipeline or a node of the graph. -/
def HasOwner (g : Graph) : ShelfOwner → Prop
  | .pipeline p => g.pipelines.Has p
  | .node n => g.nodes.Has n
  | .shelf _ => False

instance (g : Graph) : DecidablePred g.HasOwner
  | .pipeline p => inferInstanceAs (Decidable (g.pipelines.Has p))
  | .node n => inferInstanceAs (Decidable (g.nodes.Has n))
  | .shelf _ => inferInstanceAs (Decidable False)

/-- The place of the assets of an owner: of a pipeline all keys, and of a node those of its id. -/
def rootOf (g : Graph) : ShelfOwner → String
  | .pipeline _ => "/"
  | .node n => g.placeOf n
  | .shelf s => (g.shelves.get s).root

theorem shelf_setShelf_self (howner : g.HasOwner owner) (shelf : Shelf) :
    (g.setShelf owner shelf).shelf owner = shelf := by
  cases owner with
  | pipeline p =>
    have hrow := pipeline_modifyPipeline_self howner fun pipeline => { pipeline with shelf }
    exact congrArg Pipeline.shelf hrow
  | node n =>
    have hrow := g.node_modifyNode n n fun node => { node with shelf }
    rw [if_pos ⟨rfl, howner⟩] at hrow
    exact congrArg Node.shelf hrow
  | shelf s => cases howner

theorem shelf_setShelf_of_ne {other : ShelfOwner} (hne : other ≠ owner) (shelf : Shelf) :
    (g.setShelf owner shelf).shelf other = g.shelf other := by
  cases owner with
  | pipeline p =>
    cases other with
    | pipeline q =>
      have hrow := g.pipeline_modifyPipeline p q fun pipeline => { pipeline with shelf }
      rw [if_neg fun hc => hne (congrArg ShelfOwner.pipeline hc.1)] at hrow
      exact congrArg Pipeline.shelf hrow
    | node n => rfl
    | shelf s => rfl
  | node n =>
    cases other with
    | pipeline q => rfl
    | node m =>
      have hrow := g.node_modifyNode n m fun node => { node with shelf }
      rw [if_neg fun hc => hne (congrArg ShelfOwner.node hc.1)] at hrow
      exact congrArg Node.shelf hrow
    | shelf s => rfl
  | shelf s =>
    cases other with
    | pipeline q => rfl
    | node m => rfl
    | shelf s' => exact Table.get_modify_of_ne _ _ fun hs => hne (congrArg ShelfOwner.shelf hs.symm)

theorem hasOwner_setShelf {other : ShelfOwner} (shelf : Shelf) :
    (g.setShelf owner shelf).HasOwner other ↔ g.HasOwner other := by
  cases owner <;> cases other <;> first | exact Table.has_modify | exact Iff.rfl

theorem rootOf_setShelf {other : ShelfOwner} (hother : g.HasOwner other) (shelf : Shelf) :
    (g.setShelf owner shelf).rootOf other = g.rootOf other := by
  cases other with
  | pipeline q => rfl
  | node m =>
    have hid : ((g.setShelf owner shelf).node m).id = (g.node m).id := by
      cases owner with
      | pipeline p => rfl
      | node n =>
        rw [setShelf, node_modifyNode]
        split <;> rfl
      | shelf s => rfl
    rw [rootOf, rootOf, placeOf, placeOf, hid]
  | shelf s => cases hother

/-! ## Operations that leave shelves alone -/

/-- Owners keep their shelves and their places, and new owners have empty shelves at theirs. -/
structure KeepsShelves (g g' : Graph) : Prop where
  has : ∀ owner, g.HasOwner owner → g'.HasOwner owner
  shelf : ∀ owner, g.HasOwner owner → g'.shelf owner = g.shelf owner
  root : ∀ owner, g.HasOwner owner → g'.rootOf owner = g.rootOf owner
  fresh : ∀ owner, g'.HasOwner owner → ¬g.HasOwner owner →
    g'.shelf owner = { root := g'.rootOf owner }

namespace KeepsShelves

theorem refl (g : Graph) : KeepsShelves g g :=
  ⟨fun _ h => h, fun _ _ => rfl, fun _ _ => rfl, fun _ h hnew => absurd h hnew⟩

theorem trans (h : KeepsShelves g g') (h' : KeepsShelves g' g'') : KeepsShelves g g'' where
  has owner ho := h'.has owner (h.has owner ho)
  shelf owner ho := (h'.shelf owner (h.has owner ho)).trans (h.shelf owner ho)
  root owner ho := (h'.root owner (h.has owner ho)).trans (h.root owner ho)
  fresh owner ho hnew := by
    by_cases hmid : g'.HasOwner owner
    · rw [h'.shelf owner hmid, h'.root owner hmid]
      exact h.fresh owner hmid hnew
    · exact h'.fresh owner ho hmid

theorem of_same (h : g.Same g' .shelves) : KeepsShelves g g' where
  has owner ho := by
    cases owner with
    | pipeline p => exact (h.1 p).1.mpr ho
    | node n => exact (h.2 n).1.mpr ho
    | shelf s => exact ho
  shelf owner ho := by
    cases owner with
    | pipeline p => exact (h.1 p).2
    | node n => exact (h.2 n).2.1
    | shelf s => cases ho
  root owner ho := by
    cases owner with
    | pipeline p => rfl
    | node n => rw [rootOf, rootOf, placeOf, placeOf, (h.2 n).2.2]
    | shelf s => cases ho
  fresh owner ho hnew := by
    refine absurd ?_ hnew
    cases owner with
    | pipeline p => exact (h.1 p).1.mp ho
    | node n => exact (h.2 n).1.mp ho
    | shelf s => exact ho

theorem modifyPipeline (p : Ref .pipeline) {f : Pipeline → Pipeline}
    (hf : ∀ pipeline, (f pipeline).shelf = pipeline.shelf) :
    KeepsShelves g (g.modifyPipeline p f) := by
  have hframed : Framed [] g (g.modifyPipeline p f) := .modifyPipeline p (.inr hf)
  exact .of_same (hframed .shelves rfl)

theorem pushPipeline (g : Graph) {row : Pipeline} (hrow : row.shelf = { root := "/" }) :
    KeepsShelves g { g with pipelines := (g.pipelines.push row).1 } where
  has owner ho := by
    cases owner with
    | pipeline p => exact Table.has_push ho
    | node n => exact ho
    | shelf s => exact ho
  shelf owner ho := by
    cases owner with
    | pipeline p => exact congrArg Pipeline.shelf (Table.get_push_of_lt _ _ ho)
    | node n => rfl
    | shelf s => cases ho
  root owner ho := by
    cases owner with
    | pipeline p => rfl
    | node n => rfl
    | shelf s => cases ho
  fresh owner ho hnew := by
    cases owner with
    | pipeline p =>
      obtain rfl := Table.eq_of_has_push ho hnew
      exact (congrArg Pipeline.shelf (Table.get_push_self _ _)).trans hrow
    | node n => exact absurd ho hnew
    | shelf s => cases ho

theorem pushNode (g : Graph) {row : Node}
    (hrow : row.shelf = { root := "/node/" ++ toString row.id ++ "/" }) :
    KeepsShelves g { g with nodes := (g.nodes.push row).1 } where
  has owner ho := by
    cases owner with
    | pipeline p => exact ho
    | node n => exact Table.has_push ho
    | shelf s => exact ho
  shelf owner ho := by
    cases owner with
    | pipeline p => rfl
    | node n => exact congrArg Node.shelf (Table.get_push_of_lt _ _ ho)
    | shelf s => cases ho
  root owner ho := by
    cases owner with
    | pipeline p => rfl
    | node n =>
      have hold : (g.nodes.push row).1.get n = g.node n := Table.get_push_of_lt _ _ ho
      rw [rootOf, rootOf, placeOf, placeOf, Graph.node, hold]
    | shelf s => cases ho
  fresh owner ho hnew := by
    cases owner with
    | pipeline p => exact absurd ho hnew
    | node n =>
      obtain rfl := Table.eq_of_has_push ho hnew
      have hself : (g.nodes.push row).1.get (g.nodes.push row).2 = row := Table.get_push_self _ _
      rw [Graph.shelf, rootOf, placeOf, Graph.node, hself]
      exact hrow
    | shelf s => cases ho

end KeepsShelves

theorem Declares.keepsShelves {n : Ref .node} (h : Declares n g g') (hn : g.nodes.Has n) :
    KeepsShelves g g' := by
  refine .of_same ⟨fun p => ?_, fun m => ⟨h.nodesHas m, ?_⟩⟩
  · rw [Graph.pipeline, h.pipelines]
    exact ⟨.rfl, rfl⟩
  · by_cases hm : m = n
    · subst hm
      exact ⟨h.shelf, (h.moves.kept.nodes m hn).2.1⟩
    · rw [h.node m hm]
      exact ⟨rfl, rfl⟩

theorem create_keepsShelves {p : Ref .pipeline} {kind : NodeKind} {given : Value} {n : Ref .node}
    (h : g.create p kind given = .ok (g', n)) : KeepsShelves g g' := by
  obtain ⟨settings, g₁, -, rfl, hports, rfl⟩ := create_eq_ok.mp h
  have hpush : KeepsShelves g { g with nodes := (g.nodes.push (g.newNode p kind settings)).1 } :=
    .pushNode g rfl
  have hdeclares := (declarePorts_declares hports).keepsShelves (Table.has_push_self _ _)
  exact (hpush.trans hdeclares).trans (.modifyPipeline p fun _ => rfl)

end Graph

namespace Operation

open FrameGraph.Graph

variable {g : Graph}

/-- Whether an operation replaces the shelf of a pipeline or a node. -/
def restocks : Operation → Bool
  | .setShelf (.pipeline _) _ => true
  | .setShelf (.node _) _ => true
  | _ => false

theorem keepsShelves (op : Operation) (hfits : op.Fits g) (hop : op.restocks = false) :
    KeepsShelves g (op.after g) := by
  by_cases hsame : op.writes .shelves = false
  · exact .of_same (op.framed hfits .shelves hsame)
  cases op with
  | newPipeline name =>
    refine orSame_cases (.refl g) fun r hr => ?_
    obtain ⟨logName, -, hr⟩ := bind_eq_ok.mp hr
    cases hr
    exact .pushPipeline g rfl
  | create p kind given => exact orSame_cases (.refl g) fun _ hr => create_keepsShelves hr
  | setShelf owner shelf =>
    cases owner with
    | pipeline | node => cases hop
    | shelf s => exact .of_same ⟨fun _ => ⟨.rfl, rfl⟩, fun _ => ⟨.rfl, rfl, rfl⟩⟩
  | _ => exact absurd rfl hsame

end Operation

/-! ## Runs with their assets -/

/-- A step of a run: an asset is set or removed, or anything else is done that leaves the shelves of
pipelines and nodes to themselves. -/
inductive AssetStep where
  | set (owner : ShelfOwner) (key : String) (data : List UInt8)
  | remove (owner : ShelfOwner) (key : String)
  | other (op : Operation)

namespace AssetStep

def operation (g : Graph) : AssetStep → Operation
  | set owner key data => .setShelf owner ((g.shelf owner).set key data).1
  | remove owner key => .setShelf owner ((g.shelf owner).remove key).1
  | other op => op

def event? : AssetStep → Option AssetEvent
  | set owner key data => some ⟨owner, key, some data⟩
  | remove owner key => some ⟨owner, key, none⟩
  | other _ => none

def Fits (g : Graph) : AssetStep → Prop
  | set owner _ _ => g.HasOwner owner
  | remove owner _ => g.HasOwner owner
  | other op => op.Fits g ∧ op.restocks = false

end AssetStep

namespace Graph

variable {g g' : Graph} {h : History} {es : List AssetEvent}

/-- The graphs that are reached from the empty one by such steps, with what was achieved on pipelines
and the events of assets. -/
inductive AssetRun : Graph → History → List AssetEvent → Prop where
  | start : AssetRun {} [] []
  | next {g : Graph} {h : History} {es : List AssetEvent} (step : AssetStep) :
      AssetRun g h es → step.Fits g →
      AssetRun ((step.operation g).after g) (h ++ ((step.operation g).event? g).toList)
        (es ++ step.event?.toList)

end Graph

namespace AssetStep

/-- The graph, the history and the events of assets after steps in order. -/
def afterAll : Graph × History × List AssetEvent → List AssetStep →
    Graph × History × List AssetEvent
  | s, [] => s
  | s, step :: steps =>
    let op := step.operation s.1
    afterAll (op.after s.1, s.2.1 ++ (op.event? s.1).toList, s.2.2 ++ step.event?.toList) steps

def AllFit : Graph → List AssetStep → Prop
  | _, [] => True
  | g, step :: steps => step.Fits g ∧ AllFit ((step.operation g).after g) steps

end AssetStep

namespace Graph

variable {g g' : Graph} {h : History} {es : List AssetEvent}

theorem AssetRun.all (hrun : AssetRun g h es) {steps : List AssetStep}
    (hfits : AssetStep.AllFit g steps) :
    AssetRun (AssetStep.afterAll (g, h, es) steps).1 (AssetStep.afterAll (g, h, es) steps).2.1
      (AssetStep.afterAll (g, h, es) steps).2.2 := by
  induction steps generalizing g h es with
  | nil => exact hrun
  | cons step steps ih => exact ih (.next step hrun hfits.1) hfits.2

theorem AssetRun.run (hrun : AssetRun g h es) : Run g h := by
  induction hrun with
  | start => exact .start
  | next step _ hfits ih =>
    refine .next _ ih ?_
    cases step with
    | set owner key data => trivial
    | remove owner key => trivial
    | other op => exact hfits.1

/-- Every shelf lies at the place of its owner and has what the events say. -/
structure Stored (g : Graph) (es : List AssetEvent) : Prop where
  owners : ∀ e ∈ es, g.HasOwner e.owner
  root : ∀ owner, g.HasOwner owner → (g.shelf owner).root = g.rootOf owner
  assets : ∀ owner, g.HasOwner owner → ∀ key, Shelf.find? key (g.shelf owner).assets =
    (held es owner (g.rootOf owner) key).map (Asset.mk key)

namespace Stored

theorem empty : Stored {} [] where
  owners _ he := by cases he
  root owner ho := by
    cases owner with
    | pipeline p => exact absurd ho (Nat.not_lt_zero _)
    | node n => exact absurd ho (Nat.not_lt_zero _)
    | shelf s => cases ho
  assets owner ho := by
    cases owner with
    | pipeline p => exact absurd ho (Nat.not_lt_zero _)
    | node n => exact absurd ho (Nat.not_lt_zero _)
    | shelf s => cases ho

theorem held_fresh (hs : Stored g es) {owner : ShelfOwner} (ho : ¬g.HasOwner owner)
    (root key : String) : held es owner root key = none := by
  have hnone : es.reverse.find? (fun e => e.concerns owner root key) = none := by
    rw [List.find?_eq_none]
    intro e he hconcerns
    have howner : e.owner = owner := (of_decide_eq_true hconcerns).1
    exact ho (howner ▸ hs.owners e (List.mem_reverse.mp he))
  rw [held, hnone]
  rfl

theorem keep (hs : Stored g es) (hk : KeepsShelves g g') : Stored g' es where
  owners e he := hk.has e.owner (hs.owners e he)
  root owner ho := by
    by_cases hold : g.HasOwner owner
    · rw [hk.shelf owner hold, hk.root owner hold]
      exact hs.root owner hold
    · rw [hk.fresh owner ho hold]
  assets owner ho key := by
    by_cases hold : g.HasOwner owner
    · rw [hk.shelf owner hold, hk.root owner hold]
      exact hs.assets owner hold key
    · rw [hk.fresh owner ho hold, hs.held_fresh hold]
      rfl

/-- A shelf was replaced by one with other data, or none, under one key. -/
theorem put (hs : Stored g es) {owner : ShelfOwner} (ho : g.HasOwner owner) (key : String)
    (data? : Option (List UInt8)) {shelf : Shelf} (hroot : shelf.root = (g.shelf owner).root)
    (hassets : ∀ k, Shelf.find? k shelf.assets =
      if absoluteKey (g.shelf owner).root key = k then data?.map (Asset.mk k)
      else Shelf.find? k (g.shelf owner).assets) :
    Stored (g.setShelf owner shelf) (es ++ [⟨owner, key, data?⟩]) where
  owners e he := by
    rw [hasOwner_setShelf]
    rcases List.mem_append.mp he with he | he
    · exact hs.owners e he
    · rw [List.mem_singleton.mp he]
      exact ho
  root other hother := by
    rw [hasOwner_setShelf] at hother
    rw [rootOf_setShelf hother]
    by_cases hsame : other = owner
    · subst hsame
      rw [shelf_setShelf_self hother, hroot]
      exact hs.root other hother
    · rw [shelf_setShelf_of_ne hsame]
      exact hs.root other hother
  assets other hother k := by
    rw [hasOwner_setShelf] at hother
    rw [rootOf_setShelf hother, held_append]
    by_cases hsame : other = owner
    · subst hsame
      have hconcerns : AssetEvent.concerns ⟨other, key, data?⟩ other (g.rootOf other) k =
          decide (absoluteKey (g.rootOf other) key = k) := by
        simp [AssetEvent.concerns]
      rw [shelf_setShelf_self hother, hassets, hs.root other hother, hconcerns,
        hs.assets other hother]
      simp only [decide_eq_true_eq]
      split <;> rfl
    · have hconcerns : AssetEvent.concerns ⟨owner, key, data?⟩ other (g.rootOf other) k = false := by
        simp [AssetEvent.concerns, Ne.symm hsame]
      rw [shelf_setShelf_of_ne hsame, hconcerns]
      exact hs.assets other hother k

end Stored

theorem AssetRun.stored (hrun : AssetRun g h es) : Stored g es := by
  induction hrun with
  | start => exact .empty
  | @next g h es step hrun hfits ih =>
    cases step with
    | set owner key data =>
      have hroot : ((g.shelf owner).set key data).1.root = (g.shelf owner).root := rfl
      exact ih.put hfits key (some data) hroot ((g.shelf owner).find?_set key data)
    | remove owner key =>
      have hroot : ((g.shelf owner).remove key).1.root = (g.shelf owner).root := rfl
      exact ih.put hfits key none hroot ((g.shelf owner).find?_remove key)
    | other op =>
      have hkeep := op.keepsShelves hfits.1 hfits.2
      rw [show AssetStep.event? (.other op) = none from rfl, Option.toList_none, List.append_nil]
      exact ih.keep hkeep

/-! ## Loading -/

theorem assetKey?_append (key : String) : assetKey? ("asset:" ++ key) = some key := by
  have htext : ("asset:" ++ key).toList = assetMark ++ key.toList := by
    rw [String.toList_append]
    rfl
  have hmark : assetMark.isPrefixOf (assetMark ++ key.toList) = true :=
    List.isPrefixOf_iff_prefix.mpr (List.prefix_append _ _)
  rw [assetKey?, htext, if_pos hmark, List.drop_left, String.ofList_toList]

theorem load_asset (g : Graph) (files : FileTree) (p : Ref .pipeline) (key place : String) :
    g.load files p ("asset:" ++ key) place =
      match g.findAsset? p (absoluteKey place key) with
      | some asset => .ok asset.data
      | none => .error (.missingResource (absoluteKey place key)) := by
  rw [load, assetKey?_append]
  rfl

/-- The owners whose assets a pipeline can load, in the order in which they are asked: the pipeline,
and its nodes as its events give them. -/
def assetOwners (p : Ref .pipeline) (events : List Event) : List ShelfOwner :=
  .pipeline p :: (survivors 0 events).map fun e => .node e.2

theorem AssetRun.hasOwner (hrun : AssetRun g h es) {p : Ref .pipeline} (hp : g.pipelines.Has p) :
    ∀ owner ∈ assetOwners p (h.of p), g.HasOwner owner := by
  intro owner howner
  rcases List.mem_cons.mp howner with rfl | howner
  · exact hp
  · obtain ⟨⟨id, n⟩, he, rfl⟩ := List.mem_map.mp howner
    obtain ⟨-, hcreated⟩ := created_of_mem_survivors he
    exact ((hrun.run.recorded p).ids _ n hcreated).1

theorem AssetRun.findAsset?_eq (hrun : AssetRun g h es) {p : Ref .pipeline}
    (hp : g.pipelines.Has p) {key : String} (hkey : isAbsoluteKey key = true) :
    g.findAsset? p key =
      ((assetOwners p (h.of p)).findSome? fun owner => held es owner (g.rootOf owner) key).map
        (Asset.mk key) := by
  have hshelves : g.shelvesOf p = (assetOwners p (h.of p)).map g.shelf := by
    rw [shelvesOf, (hrun.run.recorded p).nodes, assetOwners, List.map_cons, List.map_map]
    rfl
  rw [findAsset?, hshelves, List.findSome?_map, List.map_findSome?]
  rw [← List.head?_filterMap, ← List.head?_filterMap]
  refine congrArg List.head? (List.filterMap_congr fun owner howner => ?_)
  have ho := hrun.hasOwner hp owner howner
  have hget : (g.shelf owner).get? key = Shelf.find? key (g.shelf owner).assets :=
    congrArg (Shelf.find? · _) (if_pos hkey)
  exact hget.trans (hrun.stored.assets owner ho key)

/-- Loading an asset looks up one absolute key: its key behind the place it is loaded from, unless it
is absolute. The answer is what the pipeline, or else the first of its nodes in the order of their
creation, was last given under this key and has not lost since; if none has anything, the fault names
the key. So a relative key at the place of a node is one behind this place, with its first slash or
without. -/
theorem run_load (hrun : AssetRun g h es) {p : Ref .pipeline} (hp : g.pipelines.Has p)
    (files : FileTree) {place : String} (hplace : isAbsoluteKey place = true) (k : String) :
    (g.load files p ("asset:" ++ k) place =
      match (assetOwners p (h.of p)).findSome? fun owner =>
          held es owner (g.rootOf owner) (absoluteKey place k) with
      | some data => .ok data
      | none => .error (.missingResource (absoluteKey place k))) ∧
    (∀ id n, (id, n) ∈ survivors 0 (h.of p) →
      g.rootOf (.node n) = "/node/" ++ toString id ++ "/") ∧
    (isAbsoluteKey k = false → ∀ n : Ref .node,
      g.load files p ("asset:" ++ k) (g.placeOf n) =
          g.load files p ("asset:" ++ ("/node/" ++ toString (g.node n).id ++ "/" ++ k)) "/" ∧
        g.load files p ("asset:" ++ k) (g.placeOf n) =
          g.load files p ("asset:" ++ ("node/" ++ toString (g.node n).id ++ "/" ++ k)) "/") := by
  refine ⟨?_, fun id n hmem => ?_, fun hk n => ?_⟩
  · rw [load_asset, hrun.findAsset?_eq hp (isAbsoluteKey_absoluteKey hplace k)]
    cases (assetOwners p (h.of p)).findSome? fun owner =>
      held es owner (g.rootOf owner) (absoluteKey place k) <;> rfl
  · obtain ⟨-, hcreated⟩ := created_of_mem_survivors hmem
    have hid : (g.node n).id = id := ((hrun.run.recorded p).ids _ n hcreated).2
    rw [rootOf, placeOf, hid]
  · have hnode : absoluteKey (g.placeOf n) k = "/node/" ++ toString (g.node n).id ++ "/" ++ k :=
      absoluteKey_of_not hk _
    have hslash : isAbsoluteKey ("/node/" ++ toString (g.node n).id ++ "/" ++ k) = true := by
      simp [isAbsoluteKey]
    have hbare : isAbsoluteKey ("node/" ++ toString (g.node n).id ++ "/" ++ k) = false := by
      simp [isAbsoluteKey]
    have hroot : absoluteKey "/" ("node/" ++ toString (g.node n).id ++ "/" ++ k) =
        "/node/" ++ toString (g.node n).id ++ "/" ++ k := by
      rw [absoluteKey_of_not hbare]
      simp [← String.append_assoc]
    rw [load_asset, load_asset, load_asset, hnode, hroot, absoluteKey_of_isAbsoluteKey hslash]
    exact ⟨rfl, rfl⟩

/-- Three owners have something under one key: the pipeline, until it is removed there, the node
whose place it is, until this node is removed, and another node. -/
def sharedKey : List AssetStep :=
  [.other (.newPipeline (.text "p")), .other (.create ⟨0⟩ .node .null),
    .other (.create ⟨0⟩ .node .null), .set (.node ⟨1⟩) "/node/0/lut" [3], .set (.node ⟨0⟩) "lut" [2],
    .set (.pipeline ⟨0⟩) "node/0/lut" [1], .remove (.pipeline ⟨0⟩) "/node/0/lut",
    .other (.remove ⟨0⟩ ⟨0⟩)]

theorem run_sharedKey :
    AssetRun (AssetStep.afterAll ({}, [], []) sharedKey).1
      (AssetStep.afterAll ({}, [], []) sharedKey).2.1
      (AssetStep.afterAll ({}, [], []) sharedKey).2.2 := by
  refine AssetRun.start.all ⟨⟨trivial, rfl⟩, ?_, ?_, ?_, ?_, ?_, ?_, ?_, trivial⟩
  all_goals
    simp only [AssetStep.Fits, Operation.Fits]
    decide +kernel

theorem sharedKey_load :
    (AssetStep.afterAll ({}, [], []) sharedKey).1.load {} ⟨0⟩ ("asset:" ++ "lut") "/node/0/" =
        .ok [3] ∧
      (AssetStep.afterAll ({}, [], []) sharedKey).1.load {} ⟨0⟩ ("asset:" ++ "lut") "/" =
        .error (.missingResource "/lut") := by
  have hp : (AssetStep.afterAll ({}, [], []) sharedKey).1.pipelines.Has ⟨0⟩ := by decide +kernel
  have hplace : isAbsoluteKey "/node/0/" = true := by decide +kernel
  have hroot : isAbsoluteKey "/" = true := by decide +kernel
  refine ⟨(run_load run_sharedKey hp {} hplace "lut").1.trans ?_,
    (run_load run_sharedKey hp {} hroot "lut").1.trans ?_⟩
  all_goals decide +kernel

end Graph

end FrameGraph

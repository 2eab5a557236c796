import FrameGraph.Proofs.Graph.Equipment
import FrameGraph.Proofs.Node.Rules

/-!
# What becomes of the settings of a node

A node is created with settings that keep the rules of its kind, and from then on only updates of
that node change them. An update is written into the settings that are there, and then all of them are
checked. So what was checked last decides whether they keep the rules: an update that is refused stays
where it was written, and an update that would be accepted on its own is refused because of it.

* `bounded_of_accepted`: the bounds that the numbers of a node keep when its settings were accepted.
* `KeepsSettings`, `Operation.keepsSettings`: nothing but an update changes the settings of a node.
* `settings_after_updates`: the settings after any operations, and what becomes of the next update.
-/

namespace FrameGraph

/-- Writes updates one after the other. -/
def Entries.mergeAll (s : Entries) (updates : List Value) : Entries :=
  updates.foldl (fun s v => (s.merge v).1) s

theorem Entries.merge_of_content (s : Entries) {v : Value} {es : Entries} (hv : v.content = .dict es) :
    s.merge v = (s.insertAll es, none) := by
  rw [merge, hv]

namespace Graph

variable {g g' g'' : Graph} {n : Ref .node} {p : Ref .pipeline} {kind : NodeKind} {given : Value}

/-! ## New nodes -/

theorem newSettings_eq_ok_iff {id : Nat} {settings : Entries} :
    g.newSettings kind id given = .ok settings ↔
      ∃ es, Entries.ofValue (given.orElse (.dict [])) = .ok es ∧
        Settings.Keeps kind (kind.settings id es) ∧ settings = kind.settings id es := by
  constructor
  · intro h
    obtain ⟨es, hes, h⟩ := bind_eq_ok.mp h
    obtain ⟨_, hcheck, h⟩ := bind_eq_ok.mp h
    cases h
    exact ⟨es, hes, Settings.keeps_of_check hcheck, rfl⟩
  · rintro ⟨es, hes, hkeeps, rfl⟩
    exact bind_eq_ok.mpr ⟨es, hes, bind_eq_ok.mpr ⟨(), hkeeps _, rfl⟩⟩

theorem create_settings (h : g.create p kind given = .ok (g', n)) :
    ∃ es, Entries.ofValue (given.orElse (.dict [])) = .ok es ∧
      (g'.node n).settings = kind.settings (g.pipeline p).nextId es ∧
      Settings.Keeps kind (g'.node n).settings := by
  obtain ⟨settings, g₁, hsettings, rfl, hports, rfl⟩ := create_eq_ok.mp h
  obtain ⟨es, hes, hkeeps, rfl⟩ := newSettings_eq_ok_iff.mp hsettings
  have hrow : ∀ row : Node, (g.nodes.push row).1.get ⟨g.nodes.size⟩ = row :=
    Table.get_push_self g.nodes
  have hstored : (g₁.node ⟨g.nodes.size⟩).settings = kind.settings (g.pipeline p).nextId es := by
    rw [(declarePorts_declares hports).settings, Graph.node, hrow]
    rfl
  exact ⟨es, hes, hstored, hstored.symm ▸ hkeeps⟩

/-! ## Updates -/

theorem setSettings_node (hn : g.nodes.Has n) (v : Value) :
    (g.setSettings n v).1.node n =
      { g.node n with settings := ((g.node n).settings.merge v).1 } := by
  rw [setSettings_eq, node_modifyNode, if_pos ⟨rfl, hn⟩]

/-- An update is accepted if all of it can be written and the settings that come of it keep the
rules. -/
theorem setSettings_accepted_iff {v : Value} :
    (g.setSettings n v).2 = none ↔ ((g.node n).settings.merge v).2 = none ∧
      Settings.Keeps (g.node n).kind ((g.node n).settings.merge v).1 := by
  unfold setSettings
  dsimp only
  split
  · next hfault => simp [hfault]
  · next hfault =>
    rw [hfault]
    split
    · next hcheck => simpa using Settings.keeps_of_check hcheck
    · next hcheck =>
      refine iff_of_false nofun fun h => ?_
      cases (h.2 _).symm.trans hcheck

/-- Settings that were accepted keep the bounds of their kind, those of a new node and those of one
that was updated. -/
theorem bounded_of_accepted (g : Graph) :
    (∀ p kind given g' n, g.create p kind given = .ok (g', n) →
      (g'.node n).kind = kind ∧ Settings.Bounded kind (g'.node n).settings) ∧
    ∀ n v g', g.nodes.Has n → g.setSettings n v = (g', none) →
      (g'.node n).kind = (g.node n).kind ∧
        Settings.Bounded (g.node n).kind (g'.node n).settings := by
  refine ⟨fun p kind given g' n h => ?_, fun n v g' hn h => ?_⟩
  · obtain ⟨-, -, -, hkeeps⟩ := create_settings h
    exact ⟨(create_equipped h).2, Settings.bounded_of_keeps hkeeps⟩
  · have hrow := setSettings_node hn v
    have haccepted : (g.setSettings n v).2 = none := by rw [h]
    obtain ⟨-, hkeeps⟩ := setSettings_accepted_iff.mp haccepted
    rw [h] at hrow
    rw [hrow]
    exact ⟨rfl, Settings.bounded_of_keeps hkeeps⟩

/-- A pipeline without nodes. -/
def blank : Graph := (Operation.afterAll ({}, []) [.newPipeline (.text "p")]).1

/-- A tone mapping with a gamma of two, and then with the least black point there is. -/
theorem toneMapping_bounded :
    ∃ g n g', blank.create ⟨0⟩ .toneMapping (.dict [(.text "gamma", .int 2)]) = .ok (g, n) ∧
      g.setSettings n (.dict [(.text "black_point", .float (.infinite true))]) = (g', none) ∧
      Settings.Bounded .toneMapping (g.node n).settings ∧
      Settings.Bounded .toneMapping (g'.node n).settings := by
  have hdone : ((blank.create ⟨0⟩ .toneMapping (.dict [(.text "gamma", .int 2)])).toOption.map
      fun r => (r.1.setSettings r.2 (.dict [(.text "black_point", .float (.infinite true))])).2) =
        some none := by
    decide +kernel
  cases hcreate : blank.create ⟨0⟩ .toneMapping (.dict [(.text "gamma", .int 2)]) with
  | error cause =>
    rw [hcreate] at hdone
    cases hdone
  | ok r =>
    obtain ⟨g, n⟩ := r
    rw [hcreate] at hdone
    have haccepted := Option.some.inj hdone
    have hupdate : g.setSettings n (.dict [(.text "black_point", .float (.infinite true))]) =
        (_, none) := Prod.ext rfl haccepted
    obtain ⟨hkind, hbounded⟩ := (bounded_of_accepted blank).1 _ _ _ _ _ hcreate
    obtain ⟨-, hbounded'⟩ :=
      (bounded_of_accepted g).2 n _ _ (create_equipped hcreate).1.has hupdate
    rw [hkind] at hbounded'
    exact ⟨g, n, _, rfl, hupdate, hbounded, hbounded'⟩

/-- A gamma that is no number is accepted, and it is not greater than zero. -/
theorem undefinedGamma_accepted :
    ∃ g n, blank.create ⟨0⟩ .toneMapping (.dict [(.text "gamma", .float .nan)]) = .ok (g, n) ∧
      Settings.setting (g.node n).settings "gamma" = .float .nan ∧
      (Number.int 0).lt (.float .nan) = false := by
  have hdone : (blank.create ⟨0⟩ .toneMapping (.dict [(.text "gamma", .float .nan)])).isOk = true := by
    decide +kernel
  cases hcreate : blank.create ⟨0⟩ .toneMapping (.dict [(.text "gamma", .float .nan)]) with
  | error cause =>
    rw [hcreate] at hdone
    cases hdone
  | ok r =>
    obtain ⟨es, hes, hsettings, -⟩ := create_settings hcreate
    cases hes
    refine ⟨r.1, r.2, rfl, ?_, rfl⟩
    rw [hsettings]
    rfl

/-! ## What leaves the settings of a node alone -/

/-- A node that is there stays there, of the same kind and with the same settings. -/
structure KeepsSettings (n : Ref .node) (g g' : Graph) : Prop where
  has : g.nodes.Has n → g'.nodes.Has n
  kind : (g'.node n).kind = (g.node n).kind
  settings : (g'.node n).settings = (g.node n).settings

namespace KeepsSettings

theorem refl (g : Graph) : KeepsSettings n g g := ⟨fun h => h, rfl, rfl⟩

theorem of_row (hn : g'.nodes.Has n) (hrow : g'.node n = g.node n) : KeepsSettings n g g' :=
  ⟨fun _ => hn, by rw [hrow], by rw [hrow]⟩

theorem modifyNode (m : Ref .node) {f : Node → Node}
    (hf : n = m → ∀ node, (f node).kind = node.kind ∧ (f node).settings = node.settings) :
    KeepsSettings n g (g.modifyNode m f) := by
  refine ⟨Table.has_modify.mpr, ?_, ?_⟩ <;> rw [node_modifyNode] <;> split
  · next hm => exact (hf hm.1 _).1
  · rfl
  · next hm => exact (hf hm.1 _).2
  · rfl

end KeepsSettings

end Graph

/-! ## Operations -/

namespace Operation

open FrameGraph.Graph

variable {g : Graph} {n : Ref .node}

/-- The update of a node's settings that an operation is, if it is one. -/
def update? (n : Ref .node) : Operation → Option Value
  | .setSettings m v => if m = n then some v else none
  | _ => none

/-- Nothing but its updates changes the settings of a node. -/
theorem keepsSettings (op : Operation) (hfits : op.Fits g) (hn : g.nodes.Has n)
    (hop : op.update? n = none) : KeepsSettings n g (op.after g) := by
  by_cases hsame : op.writes .settings = false
  · obtain ⟨hhas, hkind, hsettings⟩ := op.framed hfits .settings hsame n
    exact ⟨hhas.mpr, hkind, hsettings⟩
  cases op with
  | create p kind given =>
    refine orSame_cases (.refl g) fun r hr => ?_
    obtain ⟨hn', hrow⟩ := (create_grows hr).node n hn
    exact .of_row hn' hrow
  | setSettings m v =>
    simp only [after, setSettings_eq]
    refine .modifyNode m fun hm => ?_
    rw [update?, if_pos hm.symm] at hop
    cases hop
  | _ => exact absurd rfl hsame

theorem eq_setSettings_of_update? {op : Operation} {v : Value} (h : op.update? n = some v) :
    op = .setSettings n v := by
  unfold update? at h
  split at h
  · split at h
    · next hm =>
      cases h
      rw [hm]
    · cases h
  · cases h

/-! ## Runs -/

/-- The updates of a node that operations carry out in order, each with what it is refused for, if it
is. -/
def updates (n : Ref .node) : Graph → List Operation → List (Value × Option Fault)
  | _, [] => []
  | g, op :: ops =>
    ((op.update? n).map fun v => (v, (g.setSettings n v).2)).toList ++ updates n (op.after g) ops

end Operation

namespace Graph

open Operation

/-- The node got these updates after it had settings that keep the rules. Its settings keep them still
unless the last update was refused. -/
structure Updated (n : Ref .node) (kind : NodeKind) (start : Entries)
    (us : List (Value × Option Fault)) (g : Graph) : Prop where
  has : g.nodes.Has n
  settings : (g.node n).settings = start.mergeAll (us.map Prod.fst)
  keeps : Settings.Keeps kind (g.node n).settings ↔ ∀ u ∈ us.getLast?, u.2 = none
  kind : (g.node n).kind = kind

namespace Updated

variable {n : Ref .node} {kind : NodeKind} {start : Entries} {us : List (Value × Option Fault)}
  {g : Graph}

theorem update (h : Updated n kind start us g) {v : Value} {es : Entries}
    (hv : v.content = .dict es) :
    Updated n kind start (us ++ [(v, (g.setSettings n v).2)]) (g.setSettings n v).1 := by
  have hrow := setSettings_node h.has v
  refine ⟨?_, ?_, ?_, ?_⟩
  · rw [setSettings_eq]
    exact Table.has_modify.mpr h.has
  · rw [hrow, List.map_append, Entries.mergeAll, List.foldl_append, h.settings]
    rfl
  · rw [hrow, List.getLast?_concat, ← h.kind]
    simp [setSettings_accepted_iff, Entries.merge_of_content _ hv]
  · rw [hrow]
    exact h.kind

theorem keep {g' : Graph} (h : Updated n kind start us g) (hkeep : KeepsSettings n g g') :
    Updated n kind start us g' := by
  refine ⟨hkeep.has h.has, hkeep.settings.trans h.settings, ?_, hkeep.kind.trans h.kind⟩
  rw [hkeep.settings]
  exact h.keeps

theorem after (h : Updated n kind start us g) {op : Operation} (hfits : op.Fits g)
    (hdict : ∀ v, op.update? n = some v → ∃ es, v.content = .dict es) :
    Updated n kind start
      (us ++ ((op.update? n).map fun v => (v, (g.setSettings n v).2)).toList) (op.after g) := by
  cases hop : op.update? n with
  | none =>
    simp only [Option.map_none, Option.toList_none, List.append_nil]
    exact h.keep (op.keepsSettings hfits h.has hop)
  | some v =>
    obtain ⟨es, hes⟩ := hdict v hop
    rw [eq_setSettings_of_update? hop]
    exact h.update hes

/-- Along a run, by induction on its operations. -/
theorem afterAll (h : Updated n kind start us g) {ops : List Operation}
    (hfits : AllFit g ops) (hdict : ∀ v ∈ ops.filterMap (update? n), ∃ es, v.content = .dict es)
    (history : History) :
    Updated n kind start (us ++ updates n g ops) (Operation.afterAll (g, history) ops).1 := by
  induction ops generalizing g us history with
  | nil =>
    rw [updates, List.append_nil]
    exact h
  | cons op ops ih =>
    have hone := h.after hfits.1 fun v hv =>
      hdict v (List.mem_filterMap.mpr ⟨op, List.mem_cons_self, hv⟩)
    rw [updates, ← List.append_assoc]
    refine ih hone hfits.2 (fun v hv => hdict v ?_) _
    obtain ⟨op', hop', hv⟩ := List.mem_filterMap.mp hv
    exact List.mem_filterMap.mpr ⟨op', List.mem_cons_of_mem op hop', hv⟩

end Updated

theorem create_updated {g g' : Graph} {p : Ref .pipeline} {kind : NodeKind} {given : Value}
    {n : Ref .node} (h : g.create p kind given = .ok (g', n)) :
    Updated n kind (g'.node n).settings [] g' := by
  obtain ⟨-, -, -, hkeeps⟩ := create_settings h
  obtain ⟨hequipped, hkind⟩ := create_equipped h
  exact ⟨hequipped.has, rfl, iff_of_true hkeeps nofun, hkind⟩

/-- After any operations a node has the settings that it was created with and all its updates, the
refused ones too. They keep the rules unless the last update was refused, and the next update is
accepted if they keep the rules together with it. -/
theorem settings_after_updates {g g' : Graph} {p : Ref .pipeline} {kind : NodeKind} {given : Value}
    {n : Ref .node} (hcreate : g.create p kind given = .ok (g', n)) {ops : List Operation}
    (hfits : AllFit g' ops)
    (hdict : ∀ v ∈ ops.filterMap (update? n), ∃ es, v.content = .dict es) (history : History) :
    let us := updates n g' ops
    let g'' := (Operation.afterAll (g', history) ops).1
    (g''.node n).kind = kind ∧
      (g''.node n).settings = (g'.node n).settings.mergeAll (us.map Prod.fst) ∧
      (Settings.Keeps kind (g''.node n).settings ↔ ∀ u ∈ us.getLast?, u.2 = none) ∧
      ∀ v es, v.content = .dict es →
        ((g''.setSettings n v).1.node n).settings = (g''.node n).settings.insertAll es ∧
        ((g''.setSettings n v).2 = none ↔
          Settings.Keeps kind ((g''.node n).settings.insertAll es)) := by
  have h := (create_updated hcreate).afterAll hfits hdict history
  rw [List.nil_append] at h
  refine ⟨h.kind, h.settings, h.keeps, fun v es hv => ⟨?_, ?_⟩⟩
  · rw [setSettings_node h.has, Entries.merge_of_content _ hv]
  · rw [setSettings_accepted_iff, Entries.merge_of_content _ hv, h.kind]
    exact and_iff_right rfl

/-- An output format there is not, and then a method there is. -/
def refusedFormat : List Operation :=
  [.setSettings ⟨0⟩ (.dict [(.text "output_format", .text "yuv")]),
    .setSettings ⟨0⟩ (.dict [(.text "classic_method", .text "vng")])]

/-- Both updates are written and refused. With an output format that there is, all is well again. -/
theorem refusedFormat_settings :
    ∃ g, blank.create ⟨0⟩ .demosaic .null = .ok (g, ⟨0⟩) ∧
      (let g' := (Operation.afterAll (g, []) refusedFormat).1
       (g'.node ⟨0⟩).settings =
          [(.text "classic_method", .text "vng"), (.text "output_format", .text "yuv")] ∧
        ¬Settings.Keeps .demosaic (g'.node ⟨0⟩).settings ∧
        Settings.Keeps .demosaic
          ((g'.node ⟨0⟩).settings.insertAll [(.text "output_format", .text "bgr")])) := by
  obtain ⟨g, hcreate, hlast, hnext⟩ : ∃ g, blank.create ⟨0⟩ .demosaic .null = .ok (g, ⟨0⟩) ∧
      (∃ u ∈ (updates ⟨0⟩ g refusedFormat).getLast?, u.2 ≠ none) ∧
      ((Operation.afterAll (g, []) refusedFormat).1.setSettings ⟨0⟩
        (.dict [(.text "output_format", .text "bgr")])).2 = none :=
    ⟨_, rfl, ⟨_, rfl, nofun⟩, rfl⟩
  obtain ⟨u, hu, hrefused⟩ := hlast
  have hdict : ∀ v ∈ refusedFormat.filterMap (update? ⟨0⟩), ∃ es, v.content = .dict es := by
    simp [refusedFormat, update?, Value.content]
  have hfits : AllFit g refusedFormat := ⟨trivial, trivial, trivial⟩
  obtain ⟨-, hsettings, hkeeps, hupdate⟩ := settings_after_updates hcreate hfits hdict []
  refine ⟨g, hcreate, ?_, fun h => hrefused (hkeeps.mp h u hu), (hupdate _ _ rfl).2.mp hnext⟩
  rw [hsettings]
  cases hcreate
  rfl

/-- The settings are not what they were before the update that was refused, and an update that is
accepted on its own is refused after it. -/
theorem refusedFormat_stays :
    ∃ g, blank.create ⟨0⟩ .demosaic .null = .ok (g, ⟨0⟩) ∧
      (let v := Value.dict [(.text "output_format", .text "yuv")]
       let v' := Value.dict [(.text "classic_method", .text "vng")]
       (g.node ⟨0⟩).settings =
          [(.text "classic_method", .text "bilinear"), (.text "output_format", .text "rgb")] ∧
        (g.setSettings ⟨0⟩ v).2 = some (.refused (.outputFormat "yuv")) ∧
        ((g.setSettings ⟨0⟩ v).1.node ⟨0⟩).settings =
          [(.text "classic_method", .text "bilinear"), (.text "output_format", .text "yuv")] ∧
        (g.setSettings ⟨0⟩ v').2 = none ∧
        ((g.setSettings ⟨0⟩ v).1.setSettings ⟨0⟩ v').2 = some (.refused (.outputFormat "yuv"))) :=
  ⟨_, rfl, rfl, rfl, rfl, rfl, rfl⟩

end Graph

end FrameGraph

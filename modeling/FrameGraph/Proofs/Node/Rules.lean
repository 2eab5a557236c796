import FrameGraph.Node.Settings

/-!
# Rules of settings

The rules of a kind are tried in order, and the first one that is not kept decides what goes wrong. A
rule states a condition, or it compares two values, and then it asks the opposite question: not whether
a value is as great as it should be but whether it is too small. For most values the two questions have
opposite answers. But what is no number is neither too small nor great enough, and values that have no
order cannot be asked at all.

* `rules`: the rules of every kind, `check_eq_enforce`: checking settings is trying them in order.
* `keeps_iff`: settings are accepted exactly if every rule is kept.
* `Number.le_eq_false_iff`, `Number.lt_eq_false_iff`: what it means not to be too small.
* `bounded_of_keeps`: the bounds that accepted numbers keep.
* `check_error_of_scalars`, `check_of_incomparable`: what becomes of settings that are not accepted.
-/

namespace FrameGraph

/-! ## The order of numbers -/

namespace Number

theorem Magnitude.compare?_swap (x y : Magnitude) :
    y.compare? x = (x.compare? y).map Ordering.swap := by
  cases x with
  | undefined => cases y <;> rfl
  | infinite a =>
    cases y with
    | undefined => rfl
    | infinite b => cases a <;> cases b <;> rfl
    | dyadic m f => cases a <;> rfl
  | dyadic n e =>
    cases y with
    | undefined => rfl
    | infinite b => cases b <;> rfl
    | dyadic m f =>
      simp only [compare?, align, Int.min_comm f e, Option.map_some, Option.some.injEq]
      exact Std.OrientedOrd.eq_swap

theorem compare?_swap (a b : Number) : b.compare? a = (a.compare? b).map Ordering.swap :=
  Magnitude.compare?_swap _ _

theorem compare?_eq_none_iff {a b : Number} :
    a.compare? b = none ↔ a = .float .nan ∨ b = .float .nan := by
  have hundefined : ∀ c : Number, c.magnitude = .undefined ↔ c = .float .nan := by
    intro c
    rcases c with _ | _ | _ | _ | _ <;> simp [magnitude]
  rw [← hundefined, ← hundefined, compare?]
  cases a.magnitude <;> cases b.magnitude <;> simp [Magnitude.compare?]

/-- Greater than the other one, unless one of them is no number. -/
def Exceeds (a b : Number) : Prop := b.lt a = true ∨ a = .float .nan ∨ b = .float .nan

/-- As great as the other one, unless one of them is no number. -/
def Reaches (a b : Number) : Prop := b.le a = true ∨ a = .float .nan ∨ b = .float .nan

theorem le_eq_false_iff {a b : Number} : a.le b = false ↔ a.Exceeds b := by
  rw [Exceeds, ← compare?_eq_none_iff, le, lt, compare?_swap a b]
  rcases a.compare? b with _ | _ | _ | _ <;> decide

theorem lt_eq_false_iff {a b : Number} : a.lt b = false ↔ a.Reaches b := by
  rw [Reaches, ← compare?_eq_none_iff, lt, le, compare?_swap a b]
  rcases a.compare? b with _ | _ | _ | _ <;> decide

end Number

/-! ## Values that are compared -/

namespace Value

theorem le_of_numbers {v w : Value} {a b : Number} (hv : v.content = .number a)
    (hw : w.content = .number b) : v.le w = .ok (a.le b) := by
  simp [le, comparisonDepth, lessWithin, hv, hw]

theorem lt_of_numbers {v w : Value} {a b : Number} (hv : v.content = .number a)
    (hw : w.content = .number b) : v.lt w = .ok (a.lt b) := by
  simp [lt, comparisonDepth, lessWithin, hv, hw]

/-- Only numbers can be compared with numbers. -/
theorem number_of_less {strict : Bool} {v : Value} {b : Number} {c : Bool}
    (h : lessWithin strict comparisonDepth v (.number b) = .ok c) :
    ∃ a, v.content = .number a := by
  rw [comparisonDepth, lessWithin] at h
  cases hv : v.content with
  | number a => exact ⟨a, rfl⟩
  | _ =>
    rw [hv] at h
    cases h

/-- Nothing, truth values, numbers and texts. A number may carry a label. -/
inductive IsScalar : Value → Prop
  | null : IsScalar .null
  | number (n : Number) : IsScalar (.number n)
  | text (s : String) : IsScalar (.text s)
  | labelled (label : Nat) (n : Number) : IsScalar (.labelled label false (.number n))

/-- Two numbers, or two texts. -/
def Ordered (v w : Value) : Prop :=
  (∃ a b, v.content = .number a ∧ w.content = .number b) ∨
    ∃ s t, v.content = .text s ∧ w.content = .text t

/-- Scalars can be compared exactly if they are of one sort, and to try it with others is ill-typed. -/
theorem less_of_scalars (strict : Bool) {v w : Value} (hv : v.IsScalar) (hw : w.IsScalar) :
    (v.Ordered w ∧ ∃ b, lessWithin strict comparisonDepth v w = .ok b) ∨
      (¬v.Ordered w ∧ lessWithin strict comparisonDepth v w = .error .wrongType) := by
  rw [comparisonDepth, lessWithin]
  cases hv <;> cases hw <;> simp [Ordered, content]

/-- A scalar has a literal, unless it is an integer of too many digits. -/
theorem literal_of_scalar {v : Value} (hv : v.IsScalar) {name : MessageText} {fault : Fault}
    (h : v.literal name = .error fault) : fault.isBadValue = true := by
  cases hv with
  | null => cases h
  | number n => exact Number.text_error h
  | text s => cases h
  | labelled label n => exact Number.text_error h

theorem shown_of_scalar {v : Value} (hv : v.IsScalar) {name : MessageText} {fault : Fault}
    (h : v.shown name = .error fault) : fault.isBadValue = true := by
  cases hv with
  | null => cases h
  | number n => exact Number.text_error h
  | text s => cases h
  | labelled label n => exact Number.text_error h

end Value

/-! ## Rules -/

namespace Settings

/-- What is said where a rule is broken. Some rules show a value. -/
inductive Complaint where
  | plain (rule : Refusal)
  | about (rule : String → Refusal) (v : Value)

def Complaint.fault (name : MessageText) : Complaint → Fault
  | .plain rule => .refused rule
  | .about rule v =>
    match v.shown name with
    | .ok text => .refused (rule text)
    | .error fault => fault

inductive Demand where
  | holds (condition : Bool)
  /-- The first value is not at most the second one. -/
  | exceeds (v w : Value)
  /-- The first value is not less than the second one. -/
  | reaches (v w : Value)

/-- Whether a demand is not met, which can be asked of values that have an order. -/
def Demand.unmet : Demand → Except Fault Bool
  | .holds condition => .ok (!condition)
  | .exceeds v w => v.le w
  | .reaches v w => v.lt w

structure Rule where
  demand : Demand
  complaint : Complaint

def Rule.Kept (r : Rule) : Prop := r.demand.unmet = .ok false

/-- Tries rules up to the first one that is not kept. -/
def enforce (name : MessageText) : List Rule → Except Fault Unit
  | [] => .ok ()
  | r :: rest => do if ← r.demand.unmet then .error (r.complaint.fault name) else enforce name rest

/-- A setting that is one of some values. -/
def oneOf (v : Value) (choices : List Value) (rule : String → Refusal) : Rule :=
  ⟨.holds (v.isOneOf choices), .about rule v⟩

/-- The rules of a kind in their order. -/
def rules (kind : NodeKind) (s : Entries) : List Rule :=
  match kind with
  | .rawInput =>
    [oneOf (setting s "input_type") (choices ["file", "simulation", "camera"]) .inputType,
      ⟨.holds (!(setting s "input_type").equal (.text "file") || (setting s "file_path").truthy),
        .plain .filePathMissing⟩,
      oneOf (setting s "bayer_pattern") (choices ["rggb", "grbg", "gbrg", "bggr"]) .bayerPattern,
      ⟨.exceeds (setting s "width") zero, .plain .imageSize⟩,
      ⟨.exceeds (setting s "height") zero, .plain .imageSize⟩,
      oneOf (setting s "bit_depth") ([8, 10, 12, 14, 16].map Value.int) .bitDepth,
      ⟨.exceeds (setting s "fps") zero, .plain .frameRate⟩]
  | .demosaic =>
    [oneOf (setting s "classic_method") (choices ["bilinear", "vng", "edge_aware"]) .demosaicMethod,
      oneOf (setting s "output_format") (choices ["rgb", "bgr"]) .outputFormat]
  | .toneMapping =>
    [oneOf (setting s "mapping_method") (choices ["reinhard", "gamma", "linear"]) .mappingMethod,
      ⟨.exceeds (setting s "gamma") zero, .plain .gamma⟩,
      ⟨.exceeds (setting s "white_point") (setting s "black_point"), .plain .whitePoint⟩]
  | .frameSync =>
    [⟨.reaches (setting s "sync_threshold_ms") zero, .plain .syncThreshold⟩,
      ⟨.holds (isInteger (setting s "sync_attempts")),
        .about .syncAttempts (setting s "sync_attempts")⟩,
      ⟨.reaches (setting s "sync_attempts") (.int (-1)),
        .about .syncAttempts (setting s "sync_attempts")⟩]
  | .hostOutput => [⟨.holds (setting s "stream_name").truthy, .plain .streamName⟩]
  | _ => []

variable {name : MessageText} {kind : NodeKind} {s : Entries} {fault : Fault}

/-! ## Checking is trying the rules -/

theorem refuseIf_eq (condition : Bool) (rule : Refusal) :
    refuseIf condition rule = if condition then .error (.refused rule) else .ok () := rfl

theorem refuseValue_eq (condition : Bool) (rule : String → Refusal) (v : Value) :
    refuseValue name condition rule v =
      if condition then .error ((Complaint.about rule v).fault name) else .ok () := by
  cases condition with
  | false => rfl
  | true => cases hshown : v.shown name <;> simp [refuseValue, Complaint.fault, hshown] <;> rfl

/-- What comes behind a refusal comes about only where nothing is refused. -/
theorem refusal_bind (condition : Bool) (fault : Fault) (rest : Except Fault Unit) :
    ((if condition then .error fault else .ok () : Except Fault Unit) >>= fun _ => rest) =
      if condition then .error fault else rest := by
  cases condition <;> rfl

theorem fault_plain (rule : Refusal) : (Complaint.plain rule).fault name = .refused rule := rfl

theorem enforce_nil : enforce name [] = .ok () := rfl

theorem enforce_holds (condition : Bool) (complaint : Complaint) (rs : List Rule) :
    enforce name (⟨.holds condition, complaint⟩ :: rs) =
      if !condition then .error (complaint.fault name) else enforce name rs := rfl

theorem enforce_exceeds (v w : Value) (complaint : Complaint) (rs : List Rule) :
    enforce name (⟨.exceeds v w, complaint⟩ :: rs) =
      (v.le w >>= fun b => if b then .error (complaint.fault name) else enforce name rs) := rfl

theorem enforce_reaches (v w : Value) (complaint : Complaint) (rs : List Rule) :
    enforce name (⟨.reaches v w, complaint⟩ :: rs) =
      (v.lt w >>= fun b => if b then .error (complaint.fault name) else enforce name rs) := rfl

theorem check_eq_enforce (kind : NodeKind) (name : MessageText) (s : Entries) :
    check kind name s = enforce name (rules kind s) := by
  cases kind with
  | rawInput =>
    simp only [check, checkRawInput, rules, oneOf, refuseIf_eq, refuseValue_eq, refusal_bind,
      enforce_nil, enforce_holds, enforce_exceeds, fault_plain, Bool.not_or, Bool.not_not]
  | demosaic =>
    simp only [check, checkDemosaic, rules, oneOf, refuseValue_eq, refusal_bind, enforce_nil,
      enforce_holds]
  | toneMapping =>
    simp only [check, checkToneMapping, rules, oneOf, refuseIf_eq, refuseValue_eq, refusal_bind,
      enforce_nil, enforce_holds, enforce_exceeds, fault_plain]
  | frameSync =>
    simp only [check, checkFrameSync, rules, refuseIf_eq, refuseValue_eq, refusal_bind, enforce_nil,
      enforce_holds, enforce_reaches, fault_plain]
    cases isInteger (setting s "sync_attempts") <;> rfl
  | hostOutput => simp only [check, checkHostOutput, rules, refuseIf_eq, enforce_nil, enforce_holds,
      fault_plain]
  | _ => rfl

/-! ## What becomes of settings -/

/-- The rule is the one that goes wrong: it is broken, or its values cannot be compared. -/
def Rule.Fails (name : MessageText) (r : Rule) (fault : Fault) : Prop :=
  r.demand.unmet = .error fault ∨ (r.demand.unmet = .ok true ∧ r.complaint.fault name = fault)

theorem Rule.kept_or_fails (name : MessageText) (r : Rule) : r.Kept ∨ ∃ fault, r.Fails name fault := by
  unfold Rule.Kept Rule.Fails
  rcases r.demand.unmet with cause | _ | _
  · exact Or.inr ⟨cause, Or.inl rfl⟩
  · exact Or.inl rfl
  · exact Or.inr ⟨_, Or.inr ⟨rfl, rfl⟩⟩

theorem enforce_of_kept {r : Rule} (h : r.Kept) (rs : List Rule) :
    enforce name (r :: rs) = enforce name rs := by
  rw [enforce, show r.demand.unmet = .ok false from h]
  rfl

theorem enforce_of_fails {r : Rule} (h : r.Fails name fault) (rs : List Rule) :
    enforce name (r :: rs) = .error fault := by
  rw [enforce]
  rcases h with h | ⟨h, rfl⟩ <;> rw [h] <;> rfl

theorem enforce_eq_ok_iff {rs : List Rule} : enforce name rs = .ok () ↔ ∀ r ∈ rs, r.Kept := by
  induction rs with
  | nil => exact ⟨fun _ => nofun, fun _ => rfl⟩
  | cons r rs ih =>
    rw [List.forall_mem_cons, ← ih]
    rcases r.kept_or_fails name with hr | ⟨fault, hr⟩
    · rw [enforce_of_kept hr]
      exact (and_iff_right hr).symm
    · refine ⟨fun h => ?_, fun h => ?_⟩
      · cases (enforce_of_fails hr rs).symm.trans h
      · cases (enforce_of_kept h.1 []).symm.trans (enforce_of_fails hr [])

/-- The first rule that is not kept decides. -/
theorem enforce_eq_error_iff {rs : List Rule} : enforce name rs = .error fault ↔
    ∃ before r after, rs = before ++ r :: after ∧ (∀ q ∈ before, q.Kept) ∧ r.Fails name fault := by
  constructor
  · intro h
    induction rs with
    | nil => cases h
    | cons r rs ih =>
      rcases r.kept_or_fails name with hr | ⟨cause, hr⟩
      · rw [enforce_of_kept hr] at h
        obtain ⟨before, q, after, rfl, hbefore, hq⟩ := ih h
        exact ⟨r :: before, q, after, rfl, List.forall_mem_cons.mpr ⟨hr, hbefore⟩, hq⟩
      · rw [enforce_of_fails hr] at h
        cases h
        exact ⟨[], r, rs, rfl, nofun, hr⟩
  · rintro ⟨before, r, after, rfl, hbefore, hr⟩
    induction before with
    | nil => exact enforce_of_fails hr after
    | cons q before ih =>
      obtain ⟨hq, hbefore⟩ := List.forall_mem_cons.mp hbefore
      exact (enforce_of_kept hq _).trans (ih hbefore)

/-- The settings keep the rules of a kind. How messages are shown does not matter for that. -/
def Keeps (kind : NodeKind) (s : Entries) : Prop := ∀ name, check kind name s = .ok ()

theorem check_eq_ok_iff : check kind name s = .ok () ↔ ∀ r ∈ rules kind s, r.Kept := by
  rw [check_eq_enforce, enforce_eq_ok_iff]

theorem keeps_of_check (h : check kind name s = .ok ()) : Keeps kind s := fun _ =>
  check_eq_ok_iff.mpr (check_eq_ok_iff.mp h)

theorem keeps_iff : Keeps kind s ↔ ∀ r ∈ rules kind s, r.Kept :=
  ⟨fun h => check_eq_ok_iff.mp (h fun _ => .ok ""), fun h _ => check_eq_ok_iff.mpr h⟩

/-! ## Bounds -/

/-- What the rules of a kind say of its numbers. -/
def Bounded (kind : NodeKind) (s : Entries) : Prop :=
  match kind with
  | .rawInput => ∀ key ∈ ["width", "height", "fps"],
    ∃ a, (setting s key).content = .number a ∧ a.Exceeds (.int 0)
  | .toneMapping => (∃ a, (setting s "gamma").content = .number a ∧ a.Exceeds (.int 0)) ∧
    ∀ a b, (setting s "white_point").content = .number a →
      (setting s "black_point").content = .number b → a.Exceeds b
  | .frameSync =>
    (∃ a, (setting s "sync_threshold_ms").content = .number a ∧ a.Reaches (.int 0)) ∧
      isInteger (setting s "sync_attempts") = true ∧
      ∃ a, (setting s "sync_attempts").content = .number a ∧ (Number.int (-1)).le a = true
  | _ => True

theorem exceeds_of_le {v : Value} {b : Number} (h : v.le (.number b) = .ok false) :
    ∃ a, v.content = .number a ∧ a.Exceeds b := by
  obtain ⟨a, ha⟩ := Value.number_of_less h
  rw [Value.le_of_numbers ha rfl, Except.ok.injEq, Number.le_eq_false_iff] at h
  exact ⟨a, ha, h⟩

theorem reaches_of_lt {v : Value} {b : Number} (h : v.lt (.number b) = .ok false) :
    ∃ a, v.content = .number a ∧ a.Reaches b := by
  obtain ⟨a, ha⟩ := Value.number_of_less h
  rw [Value.lt_of_numbers ha rfl, Except.ok.injEq, Number.lt_eq_false_iff] at h
  exact ⟨a, ha, h⟩

/-- An integer that is not too small is great enough. -/
theorem integer_of_lt {v : Value} {k : Int} (hinteger : isInteger v = true)
    (h : v.lt (.int k) = .ok false) :
    ∃ a, v.content = .number a ∧ (Number.int k).le a = true := by
  obtain ⟨a, ha, hle | hundefined | hk⟩ := reaches_of_lt h
  · exact ⟨a, ha, hle⟩
  · subst hundefined
    cases v with
    | number n =>
      cases ha
      cases hinteger
    | _ => cases hinteger
  · cases hk

theorem bounded_of_keeps (h : Keeps kind s) : Bounded kind s := by
  rw [keeps_iff] at h
  cases kind with
  | rawInput =>
    simp only [rules, List.forall_mem_cons] at h
    obtain ⟨-, -, -, hwidth, hheight, -, hfps, -⟩ := h
    simp only [Bounded, List.forall_mem_cons]
    exact ⟨exceeds_of_le hwidth, exceeds_of_le hheight, exceeds_of_le hfps, nofun⟩
  | toneMapping =>
    simp only [rules, List.forall_mem_cons] at h
    obtain ⟨-, hgamma, hwhite, -⟩ := h
    refine ⟨exceeds_of_le hgamma, fun a b ha hb => Number.le_eq_false_iff.mp ?_⟩
    exact Except.ok.inj ((Value.le_of_numbers ha hb).symm.trans hwhite)
  | frameSync =>
    simp only [rules, List.forall_mem_cons] at h
    obtain ⟨hthreshold, hinteger, hattempts, -⟩ := h
    have hinteger : isInteger (setting s "sync_attempts") = true := by
      simpa [Rule.Kept, Demand.unmet] using hinteger
    exact ⟨reaches_of_lt hthreshold, hinteger, integer_of_lt hinteger hattempts⟩
  | _ => trivial

/-! ## Settings of scalars -/

/-- All settings are scalars. -/
def Scalars (s : Entries) : Prop := ∀ e ∈ s, e.2.IsScalar

theorem Scalars.insert (h : Scalars s) (key : Value) {v : Value} (hv : v.IsScalar) :
    Scalars (s.insert key v) := by
  induction s with
  | nil => exact List.forall_mem_singleton.mpr hv
  | cons e s ih =>
    obtain ⟨he, hs⟩ := List.forall_mem_cons.mp h
    rw [Entries.insert]
    split
    · exact List.forall_mem_cons.mpr ⟨hv, hs⟩
    · exact List.forall_mem_cons.mpr ⟨he, ih hs⟩

theorem Scalars.insertAll (h : Scalars s) {given : Entries} (hgiven : Scalars given) :
    Scalars (s.insertAll given) := by
  induction given generalizing s with
  | nil => exact h
  | cons e given ih =>
    obtain ⟨he, hgiven⟩ := List.forall_mem_cons.mp hgiven
    exact ih (h.insert e.1 he) hgiven

theorem Scalars.orDefaults (h : Scalars s) {defaults : Entries} (hdefaults : Scalars defaults) :
    Scalars (s.orDefaults defaults) := by
  induction defaults generalizing s with
  | nil => exact h
  | cons e defaults ih =>
    obtain ⟨he, hdefaults⟩ := List.forall_mem_cons.mp hdefaults
    refine ih (s := if (s.find? e.1).isSome then s else s.insert e.1 e.2) ?_ hdefaults
    split
    · exact h
    · exact h.insert e.1 he

theorem scalars_defaults (kind : NodeKind) (id : Nat) : Scalars (kind.defaults id) := by
  have hnumber : ∀ n, (Value.number n).IsScalar := .number
  have htext : ∀ s, (Value.text s).IsScalar := .text
  cases kind <;> simp [Scalars, NodeKind.defaults, NodeKind.decimal, hnumber, htext]

theorem Scalars.settings (h : Scalars s) (kind : NodeKind) (id : Nat) :
    Scalars (kind.settings id s) := by
  cases kind with
  | toneMapping => exact h.orDefaults (scalars_defaults _ id)
  | _ => exact (scalars_defaults _ id).insertAll h

theorem Scalars.find? (h : Scalars s) {key v : Value} (hv : s.find? key = some v) : v.IsScalar := by
  induction s with
  | nil => cases hv
  | cons e s ih =>
    obtain ⟨he, hs⟩ := List.forall_mem_cons.mp h
    rw [Entries.find?] at hv
    split at hv
    · cases hv
      exact he
    · exact ih hs hv

theorem Scalars.setting (h : Scalars s) (key : String) : (Settings.setting s key).IsScalar := by
  rw [Settings.setting, Entries.field?]
  cases hv : s.find? (.text key) with
  | none => exact .null
  | some v => exact h.find? hv

namespace Demand

/-- What is compared has an order. -/
def Comparable : Demand → Prop
  | .holds _ => True
  | .exceeds v w => v.Ordered w
  | .reaches v w => v.Ordered w

def OfScalars : Demand → Prop
  | .holds _ => True
  | .exceeds v w => v.IsScalar ∧ w.IsScalar
  | .reaches v w => v.IsScalar ∧ w.IsScalar

theorem unmet_of_scalars {demand : Demand} (h : demand.OfScalars) :
    (demand.Comparable ∧ ∃ b, demand.unmet = .ok b) ∨
      (¬demand.Comparable ∧ demand.unmet = .error .wrongType) := by
  cases demand with
  | holds condition => exact Or.inl ⟨trivial, _, rfl⟩
  | exceeds v w => exact Value.less_of_scalars false h.1 h.2
  | reaches v w => exact Value.less_of_scalars true h.1 h.2

end Demand

def Complaint.OfScalar : Complaint → Prop
  | .plain _ => True
  | .about _ v => v.IsScalar

theorem Complaint.isBadValue_fault {complaint : Complaint} (h : complaint.OfScalar) :
    (complaint.fault name).isBadValue = true := by
  cases complaint with
  | plain rule => rfl
  | about rule v =>
    rw [fault]
    split
    · rfl
    · next hshown => exact Value.shown_of_scalar h hshown

theorem Scalars.rules (h : Scalars s) (kind : NodeKind) :
    ∀ r ∈ Settings.rules kind s, r.demand.OfScalars ∧ r.complaint.OfScalar := by
  have hsetting : ∀ key, (Settings.setting s key).IsScalar := h.setting
  have hint : ∀ k : Int, (Value.int k).IsScalar := fun k => .number (.int k)
  cases kind <;>
    simp [Settings.rules, oneOf, zero, Demand.OfScalars, Complaint.OfScalar, hsetting, hint]

/-- The rules come to two values that have no order, and everything before is kept. -/
def Incomparable (kind : NodeKind) (s : Entries) : Prop :=
  ∃ before r after, rules kind s = before ++ r :: after ∧ (∀ q ∈ before, q.Kept) ∧
    ¬r.demand.Comparable

theorem check_of_incomparable (h : Scalars s) (hs : Incomparable kind s) :
    check kind name s = .error .wrongType := by
  obtain ⟨before, r, after, hrules, hbefore, hr⟩ := hs
  have hscalars := (h.rules kind r (hrules ▸ List.mem_append_right _ List.mem_cons_self)).1
  have hunmet : r.demand.unmet = .error .wrongType :=
    (Demand.unmet_of_scalars hscalars).elim (fun hok => absurd hok.1 hr) And.right
  rw [check_eq_enforce, enforce_eq_error_iff]
  exact ⟨before, r, after, hrules, hbefore, Or.inl hunmet⟩

/-- Settings of scalars are accepted or refused, unless the rules come to two values without an
order. -/
theorem check_error_of_scalars (h : Scalars s) (hcheck : check kind name s = .error fault) :
    fault.isBadValue = true ∨ (fault = .wrongType ∧ Incomparable kind s) := by
  rw [check_eq_enforce, enforce_eq_error_iff] at hcheck
  obtain ⟨before, r, after, hrules, hbefore, hr⟩ := hcheck
  obtain ⟨hdemand, hcomplaint⟩ :=
    h.rules kind r (hrules ▸ List.mem_append_right _ List.mem_cons_self)
  rcases hr with hunmet | ⟨-, rfl⟩
  · rcases Demand.unmet_of_scalars hdemand with ⟨-, b, hok⟩ | ⟨hr, hwrong⟩
    · cases hok.symm.trans hunmet
    · cases hwrong.symm.trans hunmet
      exact Or.inr ⟨rfl, before, r, after, hrules, hbefore, hr⟩
  · exact Or.inl (Complaint.isBadValue_fault hcomplaint)

end Settings

end FrameGraph

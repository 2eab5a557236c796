import FrameGraph.Description
import FrameGraph.Proofs.Endpoint

/-!
# The grammar of ports and endpoints

A port is written as a name, or as a group with a key in square brackets, and white space around it
does not count. An endpoint is written as an alias, a dot and a port. The readers accept these forms
and nothing else, and no text has two of them.

* `Text.Trims`: a text without the characters of a class at its ends, `trims_iff`.
* `PortForm`: the two forms, `PortForm.Spells.unique`, and the labels that they name.
* `PortLabel.read_eq_ok_iff_form`: the ports that are read.
* `EndpointSpec.read_grammar`: what is read, what is refused, and what an endpoint can refer to.
-/

namespace FrameGraph

/-! ## Trimmed texts -/

namespace Text

variable {p : Char → Bool} {s t : List Char}

/-- What is left of a text without the characters of the class at both ends. -/
def Trims (p : Char → Bool) (s t : List Char) : Prop :=
  Bare p t ∧ ∃ front back, s = front ++ t ++ back ∧ (∀ c ∈ front, p c = true) ∧
    ∀ c ∈ back, p c = true

theorem dropWhile_startsBare (p : Char → Bool) (s : List Char) : StartsBare p (s.dropWhile p) := by
  intro c hc
  have hstop := List.head?_dropWhile_not p s
  rw [Option.mem_def.mp hc] at hstop
  exact hstop

theorem trims_stripBy (p : Char → Bool) (s : List Char) : Trims p s (stripBy p s) := by
  have hfront := List.takeWhile_append_dropWhile (p := p) (l := s)
  have hback : stripBy p s ++ ((s.dropWhile p).reverse.takeWhile p).reverse = s.dropWhile p := by
    rw [stripBy, ← List.reverse_append, List.takeWhile_append_dropWhile, List.reverse_reverse]
  refine ⟨⟨?_, ?_⟩, s.takeWhile p, ((s.dropWhile p).reverse.takeWhile p).reverse, ?_,
    fun c hc => List.all_eq_true.mp List.all_takeWhile c hc, fun c hc => ?_⟩
  · intro c hc
    refine dropWhile_startsBare p s c ?_
    rw [← hback, List.head?_append, Option.mem_def.mp hc]
    rfl
  · intro c hc
    rw [stripBy, List.getLast?_reverse] at hc
    exact dropWhile_startsBare p _ c hc
  · rw [List.append_assoc, hback, hfront]
  · exact List.all_eq_true.mp List.all_takeWhile c (List.mem_reverse.mp hc)

theorem trims_iff : Trims p s t ↔ stripBy p s = t := by
  constructor
  · rintro ⟨hbare, front, back, rfl, hfront, hback⟩
    have hrest : (t ++ back).dropWhile p = t ++ (if t = [] then [] else back) := by
      cases t with
      | nil => simpa using hback
      | cons c t => simp [hbare.1 c (by simp)]
    rw [stripBy, List.append_assoc, List.dropWhile_append_of_pos hfront, hrest]
    split
    · next hnil =>
      rw [hnil]
      rfl
    · have hback' : ∀ c ∈ back.reverse, p c = true := fun c hc => hback c (List.mem_reverse.mp hc)
      have hends : StartsBare p t.reverse := by
        intro c hc
        rw [List.head?_reverse] at hc
        exact hbare.2 c hc
      rw [List.reverse_append, List.dropWhile_append_of_pos hback',
        dropWhile_eq_self_iff_startsBare.mpr hends, List.reverse_reverse]
  · rintro rfl
    exact trims_stripBy p s

end Text

/-! ## Forms of ports -/

/-- A port as it may be written, without white space around it. -/
inductive PortForm where
  | plain (name : List Char)
  | keyed (group key : List Char)

namespace PortForm

variable {f f' : PortForm} {t : List Char} {l : PortLabel}

def text : PortForm → List Char
  | plain name => name
  | keyed group key => group ++ '[' :: (key ++ [']'])

/-- Characters that stand for a name or a group. -/
def IsName (s : List Char) : Prop := s ≠ [] ∧ ∀ c ∈ s, c ≠ '.' ∧ c ≠ '[' ∧ c ≠ ']'

/-- Names and groups are free of dots and brackets, keys of closing brackets, and none is empty. -/
def Proper : PortForm → Prop
  | plain name => IsName name
  | keyed group key => IsName group ∧ key ≠ [] ∧ ']' ∉ key

/-- The text is written in the form. -/
def Spells (f : PortForm) (t : List Char) : Prop := f.Proper ∧ t = f.text

instance (s : List Char) : Decidable (IsName s) :=
  haveI : Decidable (∀ c ∈ s, c ≠ '.' ∧ c ≠ '[' ∧ c ≠ ']') := List.decidableBAll _ s
  inferInstanceAs (Decidable (_ ∧ _))

instance : DecidablePred Proper
  | plain name => inferInstanceAs (Decidable (IsName name))
  | keyed group key => inferInstanceAs (Decidable (IsName group ∧ key ≠ [] ∧ ']' ∉ key))

instance (f : PortForm) (t : List Char) : Decidable (f.Spells t) :=
  inferInstanceAs (Decidable (_ ∧ _))

/-- The text is written in the form up to the end of a line, which a newline may follow. -/
def SpellsLine (f : PortForm) (t : List Char) : Prop :=
  f.Proper ∧ (t = f.text ∨ t = f.text ++ ['\n'])

/-- The label that is written in a form: white space around a key and then the quotation marks around
it do not count. -/
def Names : PortForm → PortLabel → Prop
  | plain name, l => l.group = "" ∧ l.name.toList = name
  | keyed group key, l => l.group.toList = group ∧
      ∃ inner, Text.Trims Text.isBlank key inner ∧ Text.Trims PortLabel.isQuote inner l.name.toList

theorem isName_iff {s : List Char} :
    IsName s ↔ s ≠ [] ∧ ∀ c ∈ s, PortLabel.isNameChar c = true := by
  simp only [IsName, PortLabel.isNameChar, Bool.and_eq_true, decide_eq_true_eq, and_assoc]

theorem open_mem_text (group key : List Char) : '[' ∈ (keyed group key).text := by
  simp [text]

/-- No text is written in two forms. -/
theorem Spells.unique (h : f.Spells t) (h' : f'.Spells t) : f = f' := by
  obtain ⟨hproper, rfl⟩ := h
  obtain ⟨hproper', htext⟩ := h'
  cases f with
  | plain name =>
    cases f' with
    | plain name' => exact congrArg plain htext
    | keyed group' key' =>
      have hmem : '[' ∈ (plain name).text := by
        rw [htext]
        exact open_mem_text group' key'
      exact absurd rfl (hproper.2 '[' hmem).2.1
  | keyed group key =>
    cases f' with
    | plain name' =>
      have hmem : '[' ∈ (plain name').text := by
        rw [← htext]
        exact open_mem_text group key
      exact absurd rfl (hproper'.2 '[' hmem).2.1
    | keyed group' key' =>
      obtain ⟨rfl, hkey⟩ := (Text.split_inj (by decide) (isName_iff.mp hproper.1).2
        (isName_iff.mp hproper'.1).2).mp htext
      rw [List.append_cancel_right hkey]

theorem names_keyed_iff {group key : List Char} :
    (keyed group key).Names l ↔
      l.group.toList = group ∧ l.name.toList = PortLabel.readKey key := by
  refine and_congr_right fun _ => ?_
  constructor
  · rintro ⟨inner, hblank, hquote⟩
    rw [PortLabel.readKey, Text.strip, Text.trims_iff.mp hblank, Text.trims_iff.mp hquote]
  · intro hname
    exact ⟨Text.strip key, Text.trims_stripBy _ _, Text.trims_iff.mpr hname.symm⟩

/-- Every form names a label. -/
theorem exists_names : ∀ f : PortForm, ∃ l, f.Names l
  | plain name => ⟨⟨"", String.ofList name⟩, rfl, String.toList_ofList⟩
  | keyed group key => ⟨⟨String.ofList group, String.ofList (PortLabel.readKey key)⟩,
      names_keyed_iff.mpr ⟨String.toList_ofList, String.toList_ofList⟩⟩

/-- What does not end in white space is no line with a newline behind it. -/
theorem SpellsLine.spells (h : f.SpellsLine t) (ht : Text.Bare Text.isBlank t) : f.Spells t := by
  obtain ⟨hproper, hsame | hline⟩ := h
  · exact ⟨hproper, hsame⟩
  · have hnewline : Text.isBlank '\n' = false := ht.2 '\n' (by rw [hline]; simp)
    exact absurd hnewline (by decide)

end PortForm

/-! ## Ports that are read -/

theorem PortLabel.readTrimmed?_eq_some_iff_form {t : List Char} {l : PortLabel} :
    readTrimmed? t = some l ↔ ∃ f : PortForm, f.Spells t ∧ f.Names l := by
  rw [readTrimmed?_eq_some_iff]
  constructor
  · rintro (⟨hgroup, rfl, hne, hchars⟩ | ⟨key, rfl, hgroup, hchars, hkey, hclose, hname⟩)
    · exact ⟨.plain l.name.toList, ⟨PortForm.isName_iff.mpr ⟨hne, hchars⟩, rfl⟩, hgroup, rfl⟩
    · refine ⟨.keyed l.group.toList key, ⟨⟨PortForm.isName_iff.mpr ⟨?_, hchars⟩, hkey, ?_⟩, rfl⟩,
        PortForm.names_keyed_iff.mpr ⟨rfl, hname⟩⟩
      · simpa using hgroup
      · exact fun hmem => hclose ']' hmem rfl
  · rintro ⟨f, ⟨hproper, rfl⟩, hnames⟩
    cases f with
    | plain name =>
      obtain ⟨hgroup, rfl⟩ := hnames
      obtain ⟨hne, hchars⟩ := PortForm.isName_iff.mp hproper
      exact Or.inl ⟨hgroup, rfl, hne, hchars⟩
    | keyed group key =>
      obtain ⟨hproper, hkey, hclose⟩ := hproper
      obtain ⟨rfl, hname⟩ := PortForm.names_keyed_iff.mp hnames
      obtain ⟨hne, hchars⟩ := PortForm.isName_iff.mp hproper
      refine Or.inr ⟨key, rfl, ?_, hchars, hkey, ?_, hname⟩
      · simpa using hne
      · rintro c hc rfl
        exact hclose hc

theorem PortLabel.read_eq_ok_iff_form {spec : String} {t : List Char} {l : PortLabel}
    (ht : Text.Trims Text.isBlank spec.toList t) :
    read spec = .ok l ↔ ∃ f : PortForm, f.Spells t ∧ f.Names l := by
  rw [read_eq_ok_iff, Text.strip, Text.trims_iff.mp ht]
  exact readTrimmed?_eq_some_iff_form

theorem PortLabel.read_eq_error {spec : String} {fault : Fault} (h : read spec = .error fault) :
    fault = .refused (.portSpec spec) := by
  unfold read at h
  split at h
  · cases h
  · cases h
    rfl

/-! ## Endpoints that are read -/

namespace EndpointSpec

theorem isBadValue_of_read {spec : String} {fault : Fault} (h : read spec = .error fault) :
    fault.isBadValue = true := by
  unfold read at h
  split at h
  · cases h
    rfl
  · cases h
    rfl
  · obtain hport | ⟨l, -, hl⟩ := bind_eq_error.mp h
    · rw [PortLabel.read_eq_error hport]
      rfl
    · cases hl

/-- A name finds only nodes that are listed under it. -/
theorem listed_of_node? {b : Description.Built} {name : String} {n : Ref .node}
    (h : b.node? name = some n) : ∃ v, (v, n) ∈ b.nodes ∧ v.content = .text name := by
  obtain ⟨⟨v, m⟩, hfind, rfl⟩ := Option.map_eq_some_iff.mp h
  have hequal : v.equal (.text name) = true := by simpa using List.find?_some hfind
  exact ⟨v, List.mem_of_find?_eq_some hfind, Value.equal_text_iff.mp hequal⟩

/-- A port is read exactly if it is written in one of the two forms, which is the only one and tells
the label; a newline that an end of line would allow is never there, since it counts as white space.
An endpoint is read exactly if a port follows its first dot and something precedes it, and so it
finds no node whose alias has a dot. Everything else is refused as a bad value. -/
theorem read_grammar (spec : String) :
    (∃ t, Text.Trims Text.isBlank spec.toList t ∧
      (∀ l, PortLabel.read spec = .ok l ↔ ∃ f : PortForm, f.Spells t ∧ f.Names l) ∧
      ((∃ l, PortLabel.read spec = .ok l) ↔ ∃! f : PortForm, f.Spells t) ∧
      ∀ f : PortForm, f.SpellsLine t → f.Spells t) ∧
    (∀ fault, PortLabel.read spec = .error fault → fault = .refused (.portSpec spec)) ∧
    (∀ e, read spec = .ok e ↔ ∃ x, spec = e.node ++ "." ++ x ∧ e.node ≠ "" ∧
      '.' ∉ e.node.toList ∧ PortLabel.read x = .ok e.port) ∧
    (∀ fault, read spec = .error fault → fault.isBadValue = true) ∧
    ∀ e, read spec = .ok e → '.' ∉ e.node.toList ∧
      ∀ (b : Description.Built) (n : Ref .node), b.node? e.node = some n →
        ∃ v, (v, n) ∈ b.nodes ∧ v.content = .text e.node := by
  have htrims := Text.trims_stripBy Text.isBlank spec.toList
  refine ⟨⟨_, htrims, fun l => PortLabel.read_eq_ok_iff_form htrims, ?_,
    fun f hline => hline.spells htrims.1⟩, fun _ => PortLabel.read_eq_error,
    fun e => read_eq_ok_iff, fun _ => isBadValue_of_read, ?_⟩
  · constructor
    · rintro ⟨l, hl⟩
      obtain ⟨f, hspells, -⟩ := (PortLabel.read_eq_ok_iff_form htrims).mp hl
      exact ⟨f, hspells, fun f' hspells' => hspells'.unique hspells⟩
    · rintro ⟨f, hspells, -⟩
      obtain ⟨l, hnames⟩ := f.exists_names
      exact ⟨l, (PortLabel.read_eq_ok_iff_form htrims).mpr ⟨f, hspells, hnames⟩⟩
  · intro e he
    obtain ⟨-, -, -, hdot, -⟩ := read_eq_ok_iff.mp he
    exact ⟨hdot, fun b n hn => listed_of_node? hn⟩

/-- White space around a port and in its brackets goes, a dot and an opening bracket in its key stay,
and an alias keeps its white space. -/
theorem key_read_grammar :
    PortLabel.read " inputs[ 'a.b[\n' ]\n" = .ok ⟨"inputs", "a.b[\n"⟩ ∧
      read " sync .inputs['0.1']" = .ok ⟨" sync ", "inputs", "0.1"⟩ := by
  refine ⟨?_, ?_⟩
  · obtain ⟨⟨t, ht, hread, -⟩, -⟩ := read_grammar " inputs[ 'a.b[\n' ]\n"
    rw [hread, ← Text.trims_iff.mp ht]
    refine ⟨.keyed "inputs".toList " 'a.b[\n' ".toList, by decide +kernel, by decide +kernel,
      "'a.b[\n'".toList, Text.trims_iff.mpr (by decide +kernel),
      Text.trims_iff.mpr (by decide +kernel)⟩
  · obtain ⟨-, -, hread, -⟩ := read_grammar " sync .inputs['0.1']"
    exact (hread _).mpr ⟨"inputs['0.1']", by decide +kernel⟩

end EndpointSpec

end FrameGraph

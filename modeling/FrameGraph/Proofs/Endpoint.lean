import FrameGraph.Endpoint
import Mathlib.Data.List.TakeWhile
import Mathlib.Data.String.Basic

/-!
# What is read is what is written

The text of a label is read back as the label it shows exactly if its characters leave both the
brackets and the ends of the names alone. Each reader is described by an iff with the texts that it
accepts, so a text that is read back is compared with its label part by part.

* `Text.Bare`, `Text.stripBy_eq_self_iff`: the texts that stripping leaves as they are.
* `PortLabel.readTrimmed?_eq_some_iff`, `EndpointSpec.read_eq_ok_iff`: the accepted texts.
* `PortLabel.Readable`: the labels whose text names them.
* `PortLabel.read_text_iff`: reading the text of a label, alone and behind an alias.
-/

namespace FrameGraph

/-! ## Ends of a text -/

namespace Text

variable {p : Char → Bool} {s t : List Char}

/-- The text does not start with a character of the class. -/
def StartsBare (p : Char → Bool) (s : List Char) : Prop := ∀ c ∈ s.head?, p c = false

def EndsBare (p : Char → Bool) (s : List Char) : Prop := ∀ c ∈ s.getLast?, p c = false

/-- Neither end of the text is a character of the class. -/
def Bare (p : Char → Bool) (s : List Char) : Prop := StartsBare p s ∧ EndsBare p s

instance (p : Char → Bool) (s : List Char) : Decidable (StartsBare p s) :=
  Option.decidableForallMem _

instance (p : Char → Bool) (s : List Char) : Decidable (EndsBare p s) :=
  Option.decidableForallMem _

instance (p : Char → Bool) (s : List Char) : Decidable (Bare p s) :=
  inferInstanceAs (Decidable (_ ∧ _))

theorem dropWhile_eq_self_iff_startsBare : s.dropWhile p = s ↔ StartsBare p s := by
  unfold StartsBare
  cases s with
  | nil => simp
  | cons c s =>
    rw [List.dropWhile_eq_self_iff]
    simp

theorem stripBy_sublist (p : Char → Bool) (s : List Char) :
    (stripBy p s).Sublist (s.dropWhile p) := by
  have h := (List.dropWhile_sublist p (l := (s.dropWhile p).reverse)).reverse
  rwa [List.reverse_reverse] at h

theorem stripBy_eq_self_iff : stripBy p s = s ↔ Bare p s := by
  have hends : stripBy p s = s ↔ s.dropWhile p = s ∧ s.reverse.dropWhile p = s.reverse := by
    constructor
    · intro h
      have hlong : s.length ≤ (s.dropWhile p).length := by
        have hle := (stripBy_sublist p s).length_le
        rwa [h] at hle
      have hfront := (List.dropWhile_sublist p).eq_of_length_le hlong
      refine ⟨hfront, ?_⟩
      rw [stripBy, hfront] at h
      exact List.reverse_eq_iff.mp h
    · rintro ⟨hfront, hback⟩
      rw [stripBy, hfront, hback, List.reverse_reverse]
  rw [hends, dropWhile_eq_self_iff_startsBare, dropWhile_eq_self_iff_startsBare, StartsBare,
    StartsBare, List.head?_reverse]
  rfl

/-- Stripping stops at a character outside the class. -/
theorem stripBy_append_singleton {c : Char} (hc : p c = false) :
    stripBy p (s ++ [c]) = s.dropWhile p ++ [c] := by
  have hfront : (s ++ [c]).dropWhile p = s.dropWhile p ++ [c] := by
    rw [List.dropWhile_append]
    cases hs : s.dropWhile p with
    | nil => simp [hc]
    | cons d s => simp
  rw [stripBy, hfront, List.reverse_append, List.reverse_singleton, List.singleton_append,
    List.dropWhile_cons_of_neg (by simp [hc]), List.reverse_cons, List.reverse_reverse]

/-- Characters of the class around a text make no difference. -/
theorem stripBy_surround {a b : Char} (ha : p a = true) (hb : p b = true) (s : List Char) :
    stripBy p (a :: (s ++ [b])) = stripBy p s := by
  rw [stripBy, List.dropWhile_cons_of_pos ha, List.dropWhile_append]
  split
  · next hnil =>
    rw [List.isEmpty_iff] at hnil
    rw [stripBy, hnil, List.dropWhile_cons_of_pos hb]
    rfl
  · rw [List.reverse_append, List.reverse_singleton, List.singleton_append,
      List.dropWhile_cons_of_pos hb]
    rfl

/-- The first character outside the class is the same one on both sides. -/
theorem split_inj {u v : List Char} {a : Char} (ha : p a = false) (hs : ∀ c ∈ s, p c = true)
    (ht : ∀ c ∈ t, p c = true) : s ++ a :: u = t ++ a :: v ↔ s = t ∧ u = v := by
  constructor
  · intro h
    have hs' := PortLabel.takeWhile_stop u hs ha
    have ht' := PortLabel.takeWhile_stop v ht ha
    rw [h] at hs'
    refine ⟨hs'.1.symm.trans ht'.1, ?_⟩
    have htail := hs'.2.symm.trans ht'.2
    exact (List.cons.inj htail).2
  · rintro ⟨rfl, rfl⟩
    rfl

end Text

/-! ## Labels -/

namespace PortLabel

/-- The written forms of a label: a name alone, or a group with a key in brackets. -/
theorem readTrimmed?_eq_some_iff {s : List Char} {l : PortLabel} :
    readTrimmed? s = some l ↔
      (l.group = "" ∧ s = l.name.toList ∧ s ≠ [] ∧ ∀ c ∈ s, isNameChar c = true) ∨
      ∃ k, s = l.group.toList ++ '[' :: (k ++ [']']) ∧ l.group ≠ "" ∧
        (∀ c ∈ l.group.toList, isNameChar c = true) ∧ k ≠ [] ∧ (∀ c ∈ k, c ≠ ']') ∧
        l.name.toList = readKey k := by
  constructor
  · intro h
    have hsplit := List.takeWhile_append_dropWhile (p := isNameChar) (l := s)
    have hchars : ∀ c ∈ s.takeWhile isNameChar, isNameChar c = true :=
      List.all_eq_true.mp List.all_takeWhile
    unfold readTrimmed? at h
    split at h
    · cases h
    · next hrest hne =>
      cases h
      rw [hrest, List.append_nil] at hsplit
      refine Or.inl ⟨rfl, ?_, ?_, hsplit ▸ hchars⟩
      · rw [String.toList_ofList, hsplit]
      · rwa [← hsplit]
    · next rest hrest hne =>
      simp only at h
      split at h
      · next hkey =>
        cases h
        have hclose := List.takeWhile_append_dropWhile (p := fun c => decide (c ≠ ']')) (l := rest)
        rw [hkey.2] at hclose
        rw [hrest] at hsplit
        refine Or.inr ⟨_, ?_, ?_, ?_, hkey.1, ?_, String.toList_ofList⟩
        · rw [String.toList_ofList, hclose, hsplit]
        · rwa [ne_eq, String.ofList_eq_empty_iff]
        · rwa [String.toList_ofList]
        · intro c hc
          simpa using List.all_eq_true.mp List.all_takeWhile c hc
      · cases h
    · cases h
  · rintro (⟨hgroup, rfl, hne, hname⟩ | ⟨k, rfl, hgroup, hname, hk, hclose, hkey⟩)
    · rw [readTrimmed?_name hne hname, String.ofList_toList, ← hgroup]
    · have hne : l.group.toList ≠ [] := by simpa using hgroup
      rw [readTrimmed?_group hne hname hk hclose, ← hkey, String.ofList_toList,
        String.ofList_toList]

theorem read_eq_ok_iff {s : String} {l : PortLabel} :
    read s = .ok l ↔ readTrimmed? (Text.strip s.toList) = some l := by
  unfold read
  split <;> simp_all

/-- Dots and square brackets do not stand in the name. -/
def Plain (s : String) : Prop := ∀ c ∈ s.toList, c ≠ '.' ∧ c ≠ '[' ∧ c ≠ ']'

instance (s : String) : Decidable (Plain s) := List.decidableBAll _ _

theorem plain_iff {s : String} : Plain s ↔ ∀ c ∈ s.toList, isNameChar c = true := by
  simp only [Plain, isNameChar, Bool.and_eq_true, decide_eq_true_eq, and_assoc]

/-- The labels whose text names them: a name that stands for itself, or a group with a key that the
brackets and the quotation marks leave alone. -/
def Readable (l : PortLabel) : Prop :=
  (l.group = "" ∧ l.name ≠ "" ∧ Plain l.name ∧ Text.Bare Text.isBlank l.name.toList) ∨
  (l.group ≠ "" ∧ Plain l.group ∧ Text.StartsBare Text.isBlank l.group.toList ∧
    ']' ∉ l.name.toList ∧ Text.Bare isQuote l.name.toList)

instance (l : PortLabel) : Decidable l.Readable := inferInstanceAs (Decidable (_ ∨ _))

theorem read_text_iff_of_ungrouped {l : PortLabel} (hgroup : l.group = "") :
    read l.text = .ok l ↔
      l.name ≠ "" ∧ Plain l.name ∧ Text.Bare Text.isBlank l.name.toList := by
  have htext : l.text = l.name := if_pos hgroup
  rw [read_eq_ok_iff, htext, readTrimmed?_eq_some_iff]
  constructor
  · rintro (⟨-, hstrip, hne, hchars⟩ | ⟨k, -, hne, -⟩)
    · rw [hstrip] at hne hchars
      exact ⟨by simpa using hne, plain_iff.mpr hchars, Text.stripBy_eq_self_iff.mp hstrip⟩
    · exact absurd hgroup hne
  · rintro ⟨hne, hchars, hbare⟩
    have hstrip : Text.strip l.name.toList = l.name.toList := Text.stripBy_eq_self_iff.mpr hbare
    rw [hstrip]
    exact Or.inl ⟨hgroup, rfl, by simpa using hne, plain_iff.mp hchars⟩

/-- Quotation marks around a key are no white space, and reading takes just them away. -/
theorem readKey_quoted (s : List Char) : readKey ('"' :: (s ++ ['"'])) = Text.stripBy isQuote s := by
  have hstrip : Text.strip ('"' :: (s ++ ['"'])) = '"' :: (s ++ ['"']) := by
    refine Text.stripBy_eq_self_iff.mpr ⟨?_, ?_⟩
    · simp [Text.StartsBare, Text.isBlank]
    · rw [Text.EndsBare, List.getLast?_cons, List.getLast?_append]
      simp [Text.isBlank]
  rw [readKey, hstrip]
  exact Text.stripBy_surround (by decide) (by decide) s

theorem strip_text_of_grouped {l : PortLabel} (hgroup : l.group ≠ "") :
    Text.strip l.text.toList = l.group.toList.dropWhile Text.isBlank ++
      '[' :: (('"' :: (l.name.toList ++ ['"'])) ++ [']']) := by
  have htext : l.text.toList =
      (l.group.toList ++ '[' :: '"' :: (l.name.toList ++ ['"'])) ++ [']'] := by
    rw [text, if_neg hgroup]
    simp
  rw [htext, Text.strip, Text.stripBy_append_singleton (by decide), List.dropWhile_append]
  split
  · next hblank =>
    rw [List.isEmpty_iff.mp hblank, List.dropWhile_cons_of_neg (by decide)]
    simp
  · simp

theorem read_text_iff_of_grouped {l : PortLabel} (hgroup : l.group ≠ "") :
    read l.text = .ok l ↔ Plain l.group ∧ Text.StartsBare Text.isBlank l.group.toList ∧
      ']' ∉ l.name.toList ∧ Text.Bare isQuote l.name.toList := by
  rw [read_eq_ok_iff, strip_text_of_grouped hgroup, readTrimmed?_eq_some_iff]
  have hkey : ∀ {c : Char}, c ∈ '"' :: (l.name.toList ++ ['"']) ↔ c = '"' ∨ c ∈ l.name.toList := by
    simp [or_comm]
  constructor
  · rintro (⟨hungrouped, -⟩ | ⟨k, hspelled, -, hchars, -, hclose, hname⟩)
    · exact absurd hungrouped hgroup
    · have hfront : ∀ c ∈ l.group.toList.dropWhile Text.isBlank, isNameChar c = true := fun c hc =>
        hchars c ((List.dropWhile_sublist _).subset hc)
      obtain ⟨hdrop, hk⟩ := (Text.split_inj (by decide) hfront hchars).mp hspelled
      obtain rfl := List.append_cancel_right hk
      rw [readKey_quoted] at hname
      exact ⟨plain_iff.mpr hchars, Text.dropWhile_eq_self_iff_startsBare.mp hdrop,
        fun hmem => hclose ']' (hkey.mpr (Or.inr hmem)) rfl,
        Text.stripBy_eq_self_iff.mp hname.symm⟩
  · rintro ⟨hchars, hhead, hclose, hbare⟩
    rw [Text.dropWhile_eq_self_iff_startsBare.mpr hhead]
    refine Or.inr ⟨_, rfl, hgroup, plain_iff.mp hchars, by simp, ?_, ?_⟩
    · rintro c hc rfl
      rcases hkey.mp hc with hquote | hmem
      · exact absurd hquote (by decide)
      · exact hclose hmem
    · rw [readKey_quoted, Text.stripBy_eq_self_iff.mpr hbare]

end PortLabel

/-! ## Ends of connections -/

/-- The accepted ends: an alias without dots, and a label behind the first dot. -/
theorem EndpointSpec.read_eq_ok_iff {s : String} {spec : EndpointSpec} :
    read s = .ok spec ↔ ∃ x, s = spec.node ++ "." ++ x ∧ spec.node ≠ "" ∧
      '.' ∉ spec.node.toList ∧ PortLabel.read x = .ok spec.port := by
  constructor
  · intro h
    have hsplit := List.takeWhile_append_dropWhile (p := fun c => decide (c ≠ '.')) (l := s.toList)
    have hstop := List.head?_dropWhile_not (fun c => decide (c ≠ '.')) s.toList
    have hchars := List.all_eq_true.mp
      (List.all_takeWhile (p := fun c => decide (c ≠ '.')) (l := s.toList))
    unfold read at h
    split at h
    · cases h
    · cases h
    · next c port hbehind hne =>
      obtain ⟨label, hport, h⟩ := bind_eq_ok.mp h
      cases h
      rw [hbehind] at hsplit hstop
      obtain rfl : c = '.' := by simpa using hstop
      refine ⟨String.ofList port, String.toList_inj.mp ?_, ?_, ?_, hport⟩
      · simp only [String.toList_append, String.toList_ofList]
        rw [List.append_assoc]
        exact hsplit.symm
      · rwa [ne_eq, String.ofList_eq_empty_iff]
      · rw [String.toList_ofList]
        intro hdot
        simpa using hchars '.' hdot
  · rintro ⟨x, rfl, hne, hdot, hport⟩
    have hchars : ∀ c ∈ spec.node.toList, decide (c ≠ '.') = true := by
      rintro c hc
      simpa using fun heq : c = '.' => hdot (heq ▸ hc)
    have hstop := PortLabel.takeWhile_stop (c := '.') x.toList hchars (by decide)
    have htext : (spec.node ++ "." ++ x).toList = spec.node.toList ++ '.' :: x.toList := by simp
    unfold read
    rw [htext, hstop.1, hstop.2]
    split
    · next hempty => exact absurd hempty (by simpa using hne)
    · next hnil _ => cases hnil
    · next hcons _ =>
      cases hcons
      rw [String.ofList_toList, String.ofList_toList, hport]
      rfl

/-- The text of a label is read back exactly if the label is readable, and behind an alias and a
dot exactly if the alias is a name without dots. -/
theorem PortLabel.read_text_iff (l : PortLabel) :
    (read l.text = .ok l ↔ l.Readable) ∧
    (l.Readable → ∀ node : String,
      EndpointSpec.read (node ++ "." ++ l.text) = .ok ⟨node, l⟩ ↔
        node ≠ "" ∧ '.' ∉ node.toList) := by
  have hlabel : read l.text = .ok l ↔ l.Readable := by
    by_cases hgroup : l.group = ""
    · rw [read_text_iff_of_ungrouped hgroup]
      simp [Readable, hgroup]
    · rw [read_text_iff_of_grouped hgroup]
      simp [Readable, hgroup]
  refine ⟨hlabel, fun hreadable node => ?_⟩
  rw [EndpointSpec.read_eq_ok_iff]
  constructor
  · rintro ⟨-, -, hne, hdot, -⟩
    exact ⟨hne, hdot⟩
  · rintro ⟨hne, hdot⟩
    exact ⟨l.text, rfl, hne, hdot, hlabel.mpr hreadable⟩

/-- A key with a dot, a space and an opening bracket is read back. -/
theorem PortLabel.key_read_text :
    read (text ⟨"outputs", "a.b ["⟩) = .ok ⟨"outputs", "a.b ["⟩ ∧
      EndpointSpec.read ("demux" ++ "." ++ text ⟨"outputs", "a.b ["⟩) =
        .ok ⟨"demux", ⟨"outputs", "a.b ["⟩⟩ :=
  have h := read_text_iff ⟨"outputs", "a.b ["⟩
  have hreadable : Readable ⟨"outputs", "a.b ["⟩ := by decide +kernel
  ⟨h.1.mpr hreadable, (h.2 hreadable "demux").mpr (by decide +kernel)⟩

end FrameGraph

import Mathlib.Tactic.SplitIfs
import StoreQuery.Log
import StoreQuery.Proofs.Json.Ordered
import StoreQuery.Proofs.Json.Reading
import StoreQuery.Proofs.Lists
import StoreQuery.Proofs.Text.Utf8
/-!
What the line of a log entry tells. The escapes of a text are read back as the text, whatever characters
it has, so the line reads as one object with the event, the severity and the fields; the fields stand by
increasing key, in whatever order they were given.
-/
namespace StoreQuery.LogEntry

open Json.Reader (string? field? fields? value? members? skipSpace)

def Control (c : Char) : Prop := c.toNat < 0x20 ∨ 0x7f ≤ c.toNat ∧ c.toNat < 0xa0

/-- The members of a line, with the fields in some order. -/
def members (e : LogEntry) (fields : List (String × String)) : Json.Fields :=
  ("event", .string e.event) :: ("severity", .string e.severity.name) ::
    fields.map fun f => (f.1, .string f.2)

/-- A line without a control character but the line break that ends it. It is the text of an object with
the event, the severity and then the fields by increasing bytes of the key, and with nothing else. -/
structure Told (e : LogEntry) : Prop where
  one_line : ∃ text, e.line.toList = text ++ ['\n'] ∧ ∀ c ∈ text, ¬ Control c
  in_order : ∃ fields : List (String × String), fields.Perm e.fields ∧
    fields.Pairwise (fun f g => Utf8.bytes f.1 < Utf8.bytes g.1) ∧
    Json.membersOfText? e.line = some (e.members fields)
  as_value : ∃ fs, Json.ofText? e.line = some (.object fs) ∧ fs.Perm (e.members e.fields)

section Escaping

variable {c : Char} {n : Nat}

instance (c : Char) : Decidable (Control c) := inferInstanceAs (Decidable (_ ∨ _ ∧ _))

theorem isControl_iff : isControl c = true ↔ Control c := by
  simp only [isControl, Control, Bool.or_eq_true, Bool.and_eq_true, decide_eq_true_eq]

theorem lt_of_control (h : Control c) : c.toNat < 256 := by
  unfold Control at h
  omega

theorem hexValue?_hexDigit (h : n < 16) : Text.hexValue? (hexDigit n) = some n := by
  revert n
  decide

theorem not_control_hexDigit (h : n < 16) : ¬ Control (hexDigit n) := by
  revert n
  decide

theorem ofHex?_digits (h : n < 256) :
    Text.ofHex? ['0', '0', hexDigit (n / 16), hexDigit (n % 16)] = some n := by
  have hzero : Text.hexValue? '0' = some 0 := rfl
  have hhigh : Text.hexValue? (hexDigit (n / 16)) = some (n / 16) := hexValue?_hexDigit (by omega)
  have hlow : Text.hexValue? (hexDigit (n % 16)) = some (n % 16) := hexValue?_hexDigit (by omega)
  simp only [Text.ofHex?, List.foldlM_cons, List.foldlM_nil, hzero, hhigh, hlow, Option.map_some,
    Option.bind_eq_bind, Option.bind_some, Option.pure_def]
  rw [Option.some.injEq]
  omega

/-- A control character is no surrogate, so its number alone is read as the character. -/
theorem string?_control (h : Control c) (cs : List Char) :
    string? (['\\', 'u', '0', '0', hexDigit (c.toNat / 16), hexDigit (c.toNat % 16)] ++ cs) =
      (string? cs).map fun (s, cs) => (c :: s, cs) := by
  have hsmall := lt_of_control h
  have hhigh : Json.Reader.isHighSurrogate c.toNat = false := by
    rw [Json.Reader.isHighSurrogate, Bool.and_eq_false_iff, decide_eq_false_iff_not]
    omega
  have hlow : Json.Reader.isLowSurrogate c.toNat = false := by
    rw [Json.Reader.isLowSurrogate, Bool.and_eq_false_iff, decide_eq_false_iff_not]
    omega
  have hread := Json.Reader.string?_point (ofHex?_digits hsmall) hhigh hlow cs
  rw [Char.ofNat_toNat] at hread
  exact hread

/-- What is written of a character is read as the character. -/
theorem string?_escapedChar (c : Char) (cs : List Char) :
    string? (escapedChar c ++ cs) = (string? cs).map fun (s, cs) => (c :: s, cs) := by
  unfold escapedChar
  split_ifs with hquote hslash hline hreturn htab hcontrol
  · exact Json.Reader.string?_escape (by rw [hquote]; rfl) cs
  · exact Json.Reader.string?_escape (by rw [hslash]; rfl) cs
  · exact Json.Reader.string?_escape (by rw [hline]; rfl) cs
  · exact Json.Reader.string?_escape (by rw [hreturn]; rfl) cs
  · exact Json.Reader.string?_escape (by rw [htab]; rfl) cs
  · exact string?_control (isControl_iff.mp hcontrol) cs
  · have hprinted : 32 ≤ c.toNat := by
      have hc : ¬ Control c := mt isControl_iff.mpr hcontrol
      unfold Control at hc
      omega
    exact Json.Reader.string?_plain hquote hslash hprinted cs

theorem string?_escaped (s : String) (rest : List Char) :
    string? (escaped s ++ '"' :: rest) = some (s.toList, rest) := by
  unfold escaped
  induction s.toList with
  | nil => rfl
  | cons c cs ih =>
    rw [List.flatMap_cons, List.append_assoc, string?_escapedChar, ih]
    rfl

theorem escape_printed (h : ¬ Control c) : ∀ d ∈ ['\\', c], ¬ Control d :=
  List.forall_mem_cons.mpr ⟨by decide, List.forall_mem_singleton.mpr h⟩

theorem escapedChar_printed (c : Char) : ∀ d ∈ escapedChar c, ¬ Control d := by
  unfold escapedChar
  split_ifs with hquote hslash hline hreturn htab hcontrol
  · exact escape_printed (by decide)
  · exact escape_printed (by decide)
  · exact escape_printed (by decide)
  · exact escape_printed (by decide)
  · exact escape_printed (by decide)
  · have hsmall : c.toNat < 256 := lt_of_control (isControl_iff.mp hcontrol)
    have hhigh : ¬ Control (hexDigit (c.toNat / 16)) := not_control_hexDigit (by omega)
    have hlow : ¬ Control (hexDigit (c.toNat % 16)) := not_control_hexDigit (by omega)
    simp only [List.forall_mem_cons]
    exact ⟨by decide, by decide, by decide, by decide, hhigh, hlow, nofun⟩
  · rw [List.forall_mem_singleton]
    exact mt isControl_iff.mpr hcontrol

theorem escaped_printed (s : String) : ∀ d ∈ escaped s, ¬ Control d := by
  intro d hd
  obtain ⟨c, _, hd⟩ := List.mem_flatMap.mp hd
  exact escapedChar_printed c d hd

end Escaping

section Sorting

variable {f : String × String} {fs gs sorted : List (String × String)}

def Increasing (fs : List (String × String)) : Prop := fs.Pairwise fun f g => f.1 < g.1

theorem perm_insertField (f : String × String) (fs : List (String × String)) :
    (insertField f fs).Perm (f :: fs) := by
  induction fs with
  | nil => exact .refl _
  | cons g gs ih =>
    rw [insertField]
    split
    · exact .refl _
    · exact (ih.cons g).trans (.swap f g gs)

theorem perm_sortFields (fs : List (String × String)) : (sortFields fs).Perm fs := by
  have hall := perm_foldl_insert perm_insertField fs []
  rw [List.append_nil] at hall
  exact hall

theorem Increasing.insertField (h : Increasing fs) (hnew : f.1 ∉ fs.map Prod.fst) :
    Increasing (insertField f fs) := by
  induction fs with
  | nil => exact List.pairwise_singleton _ _
  | cons g gs ih =>
    obtain ⟨hfirst, hrest⟩ := List.pairwise_cons.mp h
    rw [List.map_cons, List.mem_cons, not_or] at hnew
    rw [LogEntry.insertField]
    split
    · rename_i hlt
      refine List.pairwise_cons.mpr ⟨?_, h⟩
      intro x hx
      rcases List.mem_cons.mp hx with rfl | hx
      · exact hlt
      · exact String.lt_trans hlt (hfirst x hx)
    · rename_i hle
      have hlt : g.1 < f.1 := Std.lt_of_le_of_ne (String.not_lt.mp hle) (Ne.symm hnew.1)
      refine List.pairwise_cons.mpr ⟨?_, ih hrest hnew.2⟩
      intro x hx
      rcases List.mem_cons.mp ((perm_insertField f gs).mem_iff.mp hx) with rfl | hx
      · exact hlt
      · exact hfirst x hx

theorem Increasing.foldl_insertField (h : Increasing sorted)
    (hnew : ((fs ++ sorted).map Prod.fst).Nodup) :
    Increasing (fs.foldl (fun sorted f => LogEntry.insertField f sorted) sorted) := by
  induction fs generalizing sorted with
  | nil => exact h
  | cons f fs ih =>
    have hinsert : (fs ++ LogEntry.insertField f sorted).Perm (f :: fs ++ sorted) :=
      ((perm_insertField f sorted).append_left fs).trans List.perm_middle
    have hfirst : f.1 ∉ sorted.map Prod.fst := by
      intro hmem
      rw [List.cons_append, List.map_cons, List.nodup_cons, List.map_append] at hnew
      exact hnew.1 (List.mem_append_right _ hmem)
    exact ih (h.insertField hfirst) ((hinsert.map Prod.fst).nodup_iff.mpr hnew)

theorem increasing_sortFields (h : (fs.map Prod.fst).Nodup) : Increasing (sortFields fs) := by
  apply Increasing.foldl_insertField List.Pairwise.nil
  rw [List.append_nil]
  exact h

/-- There is only one increasing order. -/
theorem Increasing.eq_of_perm (h : Increasing fs) (hother : Increasing gs) (hperm : fs.Perm gs) :
    fs = gs := by
  apply hperm.eq_of_pairwise _ h hother
  intro f g _ _ hlt hgt
  exact (String.lt_asymm hlt hgt).elim

theorem sortFields_of_perm (h : (fs.map Prod.fst).Nodup) (hperm : gs.Perm fs) :
    sortFields gs = sortFields fs := by
  have hother : (gs.map Prod.fst).Nodup := (hperm.map Prod.fst).nodup_iff.mpr h
  apply (increasing_sortFields hother).eq_of_perm (increasing_sortFields h)
  exact (perm_sortFields gs).trans (hperm.trans (perm_sortFields fs).symm)

end Sorting

section Lines

def following (fs : List (String × String)) : List Char := fs.flatMap fun f => ',' :: member f.1 f.2

theorem following_cons (f : String × String) (fs : List (String × String)) (rest : List Char) :
    following (f :: fs) ++ rest = ',' :: (member f.1 f.2 ++ (following fs ++ rest)) := by
  rw [following, List.flatMap_cons, List.cons_append, List.cons_append, List.append_assoc]
  rfl

/-- Each field adds a comma at the least. -/
theorem length_le_following (fs : List (String × String)) : fs.length ≤ (following fs).length := by
  induction fs with
  | nil => exact Nat.le_refl 0
  | cons f fs ih =>
    rw [following, List.flatMap_cons, List.length_append, List.length_cons, List.length_cons,
      ← following]
    omega

theorem field?_member (depth : Nat) (key value : String) (rest : List Char) :
    field? (value? depth) (skipSpace (member key value ++ rest)) =
      some ((key, .string value), rest) := by
  have hkey := string?_escaped key (':' :: '"' :: (escaped value ++ '"' :: rest))
  have hread := Json.Reader.field?_strings depth hkey (string?_escaped value rest)
  rw [String.ofList_toList, String.ofList_toList] at hread
  simp only [member, List.cons_append, List.append_assoc, List.nil_append]
  exact hread

theorem fields?_following (depth fuel : Nat) (key value : String) (fs : List (String × String))
    (rest : List Char) (hfuel : fs.length < fuel) :
    fields? (value? depth) fuel (member key value ++ (following fs ++ '\x7d' :: rest)) =
      some ((key, .string value) :: fs.map (fun f => (f.1, .string f.2)), rest) := by
  induction fs generalizing key value fuel with
  | nil =>
    obtain ⟨fuel, rfl⟩ := Nat.exists_eq_add_one.mpr hfuel
    exact Json.Reader.fields?_last (field?_member depth key value _) fuel
  | cons f fs ih =>
    obtain ⟨fuel, rfl⟩ := Nat.exists_eq_add_one.mpr (Nat.zero_lt_of_lt hfuel)
    have hmore : fs.length < fuel := Nat.lt_of_succ_lt_succ hfuel
    rw [following_cons, Json.Reader.fields?_more (field?_member depth key value _) fuel,
      ih fuel f.1 f.2 hmore]
    rfl

theorem members?_following (depth : Nat) (key value : String) (fs : List (String × String))
    (rest : List Char) :
    members? depth ('\x7b' :: (member key value ++ (following fs ++ '\x7d' :: rest))) =
      some ((key, .string value) :: fs.map (fun f => (f.1, .string f.2)), rest) := by
  have hfuel : fs.length < (member key value ++ (following fs ++ '\x7d' :: rest)).length := by
    have hfields := length_le_following fs
    simp only [List.length_append, List.length_cons]
    omega
  exact fields?_following depth _ key value fs rest hfuel

theorem line_eq (e : LogEntry) : e.line.toList = '\x7b' :: (member "event" e.event ++
    (following (("severity", e.severity.name) :: sortFields e.fields) ++ ['\x7d', '\n'])) := by
  rw [line, String.toList_ofList, body, following_cons]
  simp only [following, List.cons_append, List.append_assoc, List.nil_append]

/-- Every part of a line is read as what it was written of. -/
theorem membersOfText?_line (e : LogEntry) :
    Json.membersOfText? e.line = some (e.members (sortFields e.fields)) := by
  have hread := members?_following Json.Reader.maxDepth.pred "event" e.event
    (("severity", e.severity.name) :: sortFields e.fields) ['\n']
  rw [Json.membersOfText?, line_eq]
  change (members? _ ('\x7b' :: _)).bind _ = _
  rw [hread]
  rfl

theorem member_printed (key value : String) : ∀ c ∈ member key value, ¬ Control c := by
  simp only [member, List.forall_mem_cons, List.forall_mem_append]
  exact ⟨by decide, escaped_printed key, by decide, by decide, by decide, escaped_printed value,
    by decide, nofun⟩

theorem body_printed (e : LogEntry) : ∀ c ∈ e.body, ¬ Control c := by
  have hfields : ∀ c ∈ (sortFields e.fields).flatMap (fun f => ',' :: member f.1 f.2), ¬ Control c := by
    intro c hc
    obtain ⟨f, _, hc⟩ := List.mem_flatMap.mp hc
    rcases List.mem_cons.mp hc with rfl | hc
    · decide
    · exact member_printed f.1 f.2 c hc
  simp only [body, List.forall_mem_cons, List.forall_mem_append]
  exact ⟨by decide, ⟨⟨member_printed _ _, by decide, member_printed _ _⟩, hfields⟩, by decide, nofun⟩

theorem names_members (e : LogEntry) (fs : List (String × String)) :
    (e.members fs).map Prod.fst = "event" :: "severity" :: fs.map Prod.fst := by
  rw [members, List.map_cons, List.map_cons, List.map_map]
  rfl

theorem told (e : LogEntry) (h : ("event" :: "severity" :: e.fields.map Prod.fst).Nodup) : e.Told := by
  have hfields : (e.fields.map Prod.fst).Nodup := h.of_cons.of_cons
  have hsorted : (sortFields e.fields).Perm e.fields := perm_sortFields e.fields
  have hread := e.membersOfText?_line
  refine ⟨⟨e.body, String.toList_ofList, e.body_printed⟩, ⟨_, hsorted, ?_, hread⟩, ?_⟩
  · exact (increasing_sortFields hfields).imp Utf8.bytes_lt
  · have hmembers : (e.members (sortFields e.fields)).Perm (e.members e.fields) :=
      ((hsorted.map _).cons _).cons _
    have hnames : ((e.members (sortFields e.fields)).map Prod.fst).Nodup := by
      rw [(hmembers.map Prod.fst).nodup_iff, names_members]
      exact h
    exact ⟨_, Json.ofText?_of_members hread, (Json.Fields.ofList_perm hnames).trans hmembers⟩

end Lines

/-- Whatever characters the event and the fields have, the line tells the entry, and tells it in one way:
the order that the fields were given in does not matter. -/
theorem lines_tell_entries (e : LogEntry)
    (h : ("event" :: "severity" :: e.fields.map Prod.fst).Nodup) :
    e.Told ∧ ∀ fields, fields.Perm e.fields → LogEntry.line { e with fields := fields } = e.line := by
  refine ⟨e.told h, ?_⟩
  intro fields hperm
  have hfields : (e.fields.map Prod.fst).Nodup := h.of_cons.of_cons
  rw [line, line, body, body, sortFields_of_perm hfields hperm]

/-- Quotes, backslashes and control characters of both ranges, in the event, a key and a value. -/
theorem lines_tell_entries_of_escapes :
    let e : LogEntry := ⟨.warn, "A\"\\", [("z\n", "\u0085\\u"), ("é", "\x00\t")]⟩
    ("event" :: "severity" :: e.fields.map Prod.fst).Nodup ∧
    e.line = "\x7b\"event\":\"A\\\"\\\\\",\"severity\":\"WARN\"," ++
      "\"z\\n\":\"\\u0085\\\\u\",\"é\":\"\\u0000\\t\"\x7d\n" ∧
    e.Told ∧ LogEntry.line ⟨.warn, "A\"\\", e.fields.reverse⟩ = e.line := by
  intro e
  have hnames : ("event" :: "severity" :: e.fields.map Prod.fst).Nodup := by decide
  have hline : e.line = "\x7b\"event\":\"A\\\"\\\\\",\"severity\":\"WARN\"," ++
      "\"z\\n\":\"\\u0085\\\\u\",\"é\":\"\\u0000\\t\"\x7d\n" := by
    decide +kernel
  obtain ⟨htold, hsame⟩ := lines_tell_entries e hnames
  exact ⟨hnames, hline, htold, hsame e.fields.reverse (List.reverse_perm _)⟩

end StoreQuery.LogEntry

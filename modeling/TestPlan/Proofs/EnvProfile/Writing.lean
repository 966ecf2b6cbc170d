import TestPlan.Proofs.EnvProfile.Overlay
import TestPlan.Proofs.Text.Words

/-!
# Written profiles

A profile may be written in many ways: white space may stand around names and values, blank lines and comments
between the assignments, and any line ends behind the lines (`EnvProfile.Writes`). A line assigns what stands
before and after its first equals sign (`EnvProfile.assignment?_append_equals`), so all of these ways are read
back as the same profile if its names and values keep to what a line can hold (`EnvProfile.IsProper`), and what
is read off a text always does (`EnvProfile.profile_reads_back`).
-/

namespace TestPlan.EnvProfile

variable {profile : EnvProfile} {name value line written : Text} {lines : List Text}

/-- A name that a line can assign to: it is not empty, has no equals sign, no line end and no white space at its
ends, and does not begin like a comment. -/
structure IsName (name : Text) : Prop where
  ne_nil : name ≠ []
  equals : .char '=' ∉ name
  unbroken : Text.IsUnbroken name
  trimmed : Text.IsTrimmed name
  comment : name.head? ≠ some (.char '#')

/-- A value that a line can assign: it has no line end, and no white space at its ends. -/
structure IsContent (value : Text) : Prop where
  unbroken : Text.IsUnbroken value
  trimmed : Text.IsTrimmed value

/-- A profile that can be written: lines can assign all its values to all its names, and no name twice. -/
structure IsProper (profile : EnvProfile) : Prop where
  assignments : ∀ entry ∈ profile, IsName entry.1 ∧ IsContent entry.2
  nodup : profile.names.Nodup

/-- Whether a text is the name of a variable is decided symbol by symbol. -/
instance (name : Text) : Decidable (IsName name) :=
  decidable_of_iff (name ≠ [] ∧ .char '=' ∉ name ∧ name.IsUnbroken ∧ name.IsTrimmed ∧ name.head? ≠ some (.char '#'))
    ⟨fun ⟨hne, hequals, hunbroken, htrimmed, hcomment⟩ => ⟨hne, hequals, hunbroken, htrimmed, hcomment⟩,
      fun ⟨hne, hequals, hunbroken, htrimmed, hcomment⟩ => ⟨hne, hequals, hunbroken, htrimmed, hcomment⟩⟩

/-- Whether a text can stand behind an equals sign is decided symbol by symbol. -/
instance (value : Text) : Decidable (IsContent value) :=
  decidable_of_iff (value.IsUnbroken ∧ value.IsTrimmed)
    ⟨fun ⟨hunbroken, htrimmed⟩ => ⟨hunbroken, htrimmed⟩, fun ⟨hunbroken, htrimmed⟩ => ⟨hunbroken, htrimmed⟩⟩

/-- Whether a profile can be written is decided entry by entry. -/
instance (profile : EnvProfile) : Decidable profile.IsProper :=
  decidable_of_iff ((∀ entry ∈ profile, IsName entry.1 ∧ IsContent entry.2) ∧ profile.names.Nodup)
    ⟨fun ⟨hassignments, hnodup⟩ => ⟨hassignments, hnodup⟩, fun ⟨hassignments, hnodup⟩ => ⟨hassignments, hnodup⟩⟩

/-- The ways of writing an assignment: white space around the name and around the value. -/
def WritesAssignment (name value line : Text) : Prop :=
  ∃ left right, Text.IsPadded name left ∧ Text.IsPadded value right ∧ line = left ++ .char '=' :: right

/-- A line that says nothing: white space, which a comment may follow. -/
def IsIdle (line : Text) : Prop :=
  Text.IsWhite line ∨ ∃ before comment, Text.IsWhite before ∧ line = before ++ .char '#' :: comment

/-- The lines in which a profile may be written: one for each assignment in order, and idle ones anywhere. -/
inductive WritesLines : EnvProfile → List Text → Prop
  | nil : WritesLines [] []
  | idle {profile : EnvProfile} {line : Text} {lines : List Text} (hline : IsIdle line)
      (hrest : WritesLines profile lines) : WritesLines profile (line :: lines)
  | assignment {profile : EnvProfile} {name value line : Text} {lines : List Text}
      (hline : WritesAssignment name value line) (hrest : WritesLines profile lines) :
      WritesLines ((name, value) :: profile) (line :: lines)

/-- The ways of writing a profile. -/
def Writes (profile : EnvProfile) (text : Text) : Prop :=
  ∃ lines, WritesLines profile lines ∧ Text.WritesLines lines text

/-- A profile written without white space, with a line feed behind each assignment. -/
def text (profile : EnvProfile) : Text :=
  profile.flatMap fun entry => entry.1 ++ .char '=' :: entry.2 ++ [.char '\n']

/-- An equals sign is not trimmed off. -/
theorem isBlank_equals : Text.isBlank (.char '=') = false := rfl

/-- A line without an equals sign assigns nothing. -/
theorem assignment?_of_not_mem (h : .char '=' ∉ line) : assignment? line = none := by
  have hcontent : .char '=' ∉ Text.trim line := mt ((Text.isPadded_trim line).mem_iff isBlank_equals).mpr h
  simp [assignment?, Text.cut?_of_not_mem hcontent]

/-- A line assigns what is behind its first equals sign to what is before it, unless that is nothing or begins a
comment. -/
theorem assignment?_append_equals {left : Text} (h : .char '=' ∉ left) (right : Text) :
    assignment? (left ++ .char '=' :: right) =
      if (Text.trim left).head? = some (.char '#') ∨ Text.trim left = [] then none
      else some (Text.trim left, Text.trim right) := by
  have hcut : .char '=' ∉ left.dropWhile Text.isBlank := fun hmem => h ((List.dropWhile_suffix _).subset hmem)
  have hname : Text.trim (left.dropWhile Text.isBlank) = Text.trim left :=
    (Text.isPadded_dropWhile left).trim_eq_trim.symm
  have hvalue : Text.trim (right.rdropWhile Text.isBlank) = Text.trim right :=
    (Text.isPadded_rdropWhile right).trim_eq_trim.symm
  have hhead :
      (left.dropWhile Text.isBlank ++ .char '=' :: right.rdropWhile Text.isBlank).head? = some (.char '#') ↔
      (Text.trim left).head? = some (.char '#') := by
    rw [Text.head?_trim]
    cases left.dropWhile Text.isBlank <;> simp
  simp only [assignment?, Text.trim_append_cons isBlank_equals, Text.cut?_append_cons hcut, Option.bind_eq_bind,
    Option.bind_some, Option.pure_def, beq_iff_eq, hhead, hname, hvalue, List.isEmpty_iff, ite_or]

/-- A line assigns what is written in it. -/
theorem WritesAssignment.assignment?_eq (h : WritesAssignment name value line) (hname : IsName name)
    (hvalue : IsContent value) : assignment? line = some (name, value) := by
  obtain ⟨left, right, hleft, hright, rfl⟩ := h
  rw [assignment?_append_equals (mt (hleft.mem_iff isBlank_equals).mp hname.equals), hleft.trim_eq hname.trimmed,
    hright.trim_eq hvalue.trimmed, if_neg (not_or.mpr ⟨hname.comment, hname.ne_nil⟩)]

/-- A line that says nothing assigns nothing. -/
theorem IsIdle.assignment?_eq (h : IsIdle line) : assignment? line = none := by
  rcases h with hwhite | ⟨before, comment, hbefore, rfl⟩
  · apply assignment?_of_not_mem
    intro hmem
    exact Bool.false_ne_true (isBlank_equals.symm.trans (hwhite _ hmem))
  · have hcontent := Text.trim_append_cons (s := .char '#') rfl before comment
    rw [List.dropWhile_eq_nil_iff.mpr hbefore, List.nil_append] at hcontent
    simp [assignment?, hcontent]

/-- What a line assigns can be assigned by a line. -/
theorem isName_of_assignment? (hline : Text.IsUnbroken line) (h : assignment? line = some (name, value)) :
    IsName name ∧ IsContent value := by
  by_cases hequals : .char '=' ∈ line
  · obtain ⟨left, right, rfl, hleft⟩ := List.eq_append_cons_of_mem hequals
    rw [assignment?_append_equals hleft] at h
    split at h
    · simp at h
    next hname =>
      obtain ⟨hcomment, hne⟩ := not_or.mp hname
      obtain ⟨rfl, rfl⟩ := Prod.mk.inj (Option.some.inj h)
      have hwithin {part : Text} (hpart : part ⊆ left ++ .char '=' :: right) : Text.IsUnbroken part :=
        fun s hs => hline s (hpart hs)
      have htrim (part : Text) : Text.trim part ⊆ part := (Text.trimBoth_isInfix Text.isBlank part).subset
      refine ⟨⟨hne, fun hmem => hleft (htrim left hmem), hwithin ?_, Text.isTrimmed_trim left, hcomment⟩,
        hwithin ?_, Text.isTrimmed_trim right⟩
      · exact List.subset_append_of_subset_left _ (htrim left)
      · exact List.subset_append_of_subset_right _ (List.subset_cons_of_subset _ (htrim right))
  · simp [assignment?_of_not_mem hequals] at h

/-- The profile that a text describes can be written. -/
theorem isProper_ofText (text : Text) : (ofText text).IsProper := by
  refine ⟨fun entry hentry => ?_, nodup_names_ofText text⟩
  obtain ⟨line, hline, hassigned⟩ : ∃ line ∈ Text.lines text, assignment? line = some entry := by
    rcases mem_of_mem_overlay hentry with hnone | hmem
    · exact absurd hnone List.not_mem_nil
    · exact List.mem_filterMap.mp hmem
  exact isName_of_assignment? ((Text.writesLines_lines text).isUnbroken line hline) hassigned

/-- The assignments of the lines in which a profile is written are those of the profile. -/
theorem WritesLines.filterMap_assignment? (h : WritesLines profile lines)
    (hprofile : ∀ entry ∈ profile, IsName entry.1 ∧ IsContent entry.2) : lines.filterMap assignment? = profile := by
  induction h with
  | nil => rfl
  | idle hline _ ih => rw [List.filterMap_cons_none hline.assignment?_eq, ih hprofile]
  | assignment hline _ ih =>
    obtain ⟨⟨hname, hvalue⟩, hrest⟩ := List.forall_mem_cons.mp hprofile
    rw [List.filterMap_cons_some (hline.assignment?_eq hname hvalue), ih hrest]

/-- A profile that can be written is read back from every way of writing it. -/
theorem IsProper.ofText_eq (h : profile.IsProper) (hwrites : profile.Writes written) :
    ofText written = profile := by
  obtain ⟨lines, hlines, htext⟩ := hwrites
  rw [ofText, htext.filterMap_lines assignment?_nil, hlines.filterMap_assignment? h.assignments,
    overlay_nil h.nodup]

/-- A profile written without white space is written. -/
theorem IsProper.writes_text (h : profile.IsProper) : Writes profile profile.text := by
  obtain ⟨hassignments, -⟩ := h
  induction profile with
  | nil => exact ⟨[], .nil, .nil⟩
  | cons entry rest ih =>
    obtain ⟨⟨hname, hvalue⟩, hrest⟩ := List.forall_mem_cons.mp hassignments
    obtain ⟨lines, hlines, htext⟩ := ih hrest
    have hline : Text.IsUnbroken (entry.1 ++ .char '=' :: entry.2) :=
      List.forall_mem_append.mpr ⟨hname.unbroken, List.forall_mem_cons.mpr ⟨rfl, hvalue.unbroken⟩⟩
    refine ⟨(entry.1 ++ .char '=' :: entry.2) :: lines, .assignment ?_ hlines, ?_⟩
    · exact ⟨entry.1, entry.2, Text.isPadded_refl entry.1, Text.isPadded_refl entry.2, rfl⟩
    · exact .cons hline (.inl ⟨.char '\n', rfl, rfl⟩) htext

/-- Whatever a text holds, the profile that it describes has proper names and values, and no name twice. Every
profile of this kind can be written, and is read back, in the same order, from every text with one line for each
of its assignments, whatever white space stands around names and values, whatever blank lines and comments stand
between, and whatever ends the lines. So what has been read may be written out and read again. -/
theorem profile_reads_back :
    (∀ text, (ofText text).IsProper) ∧
    (∀ profile : EnvProfile, profile.IsProper →
      profile.Writes profile.text ∧ ∀ written, profile.Writes written → ofText written = profile) ∧
    ∀ text, ofText (ofText text).text = ofText text ∧
      ∀ written, (ofText text).Writes written → ofText written = ofText text := by
  refine ⟨isProper_ofText, fun profile hprofile => ⟨hprofile.writes_text, fun _ => hprofile.ofText_eq⟩,
    fun text => ?_⟩
  have hproper := isProper_ofText text
  exact ⟨hproper.ofText_eq hproper.writes_text, fun _ => hproper.ofText_eq⟩

/-- A value with the marks of an assignment and of a comment, and an empty one. The comment in between ends with a
carriage return and the empty line behind it with a line feed, which is one line end only. -/
theorem profile_reads_back_of_comment :
    let profile : EnvProfile := [("TOKEN", "a=b#c"), ("EMPTY", "")]
    let written : Text := "\x1f TOKEN =\ta=b#c \r\n # x=1\r\n EMPTY=\u2028"
    profile.IsProper ∧ profile.Writes written ∧ ofText written = profile := by
  intro profile written
  have hproper : profile.IsProper := by decide +kernel
  have htoken : WritesAssignment "TOKEN" "a=b#c" "\x1f TOKEN =\ta=b#c " :=
    ⟨"\x1f TOKEN ", "\ta=b#c ", ⟨"\x1f ", " ", by decide, by decide, rfl⟩,
      ⟨"\t", " ", by decide, by decide, rfl⟩, rfl⟩
  have hempty : WritesAssignment "EMPTY" "" " EMPTY=" :=
    ⟨" EMPTY", "", ⟨" ", "", by decide, by decide, rfl⟩, Text.isPadded_refl _, rfl⟩
  have hcomment : IsIdle " # x=1" := .inr ⟨" ", " x=1", by decide, rfl⟩
  have hlines : WritesLines profile ["\x1f TOKEN =\ta=b#c ", " # x=1", "", " EMPTY="] :=
    .assignment htoken (.idle hcomment (.idle (.inl (by decide)) (.assignment hempty .nil)))
  have hends : Text.IsLineEnd "\r" ∧ Text.IsLineEnd "\n" ∧ Text.IsLineEnd "\u2028" :=
    ⟨.inl ⟨.char '\r', rfl, rfl⟩, .inl ⟨.char '\n', rfl, rfl⟩, .inl ⟨.char '\u2028', rfl, rfl⟩⟩
  have hlast : Text.WritesLines [" EMPTY="] " EMPTY=\u2028" := .cons (by decide +kernel) hends.2.2 .nil
  have hblank : Text.WritesLines ["", " EMPTY="] "\n EMPTY=\u2028" := .cons (by decide) hends.2.1 hlast
  have htext : Text.WritesLines [" # x=1", "", " EMPTY="] " # x=1\r\n EMPTY=\u2028" :=
    .cons (by decide +kernel) hends.1 hblank
  have hwrites : profile.Writes written := ⟨_, hlines, .cons (by decide +kernel) (.inr rfl) htext⟩
  exact ⟨hproper, hwrites, (profile_reads_back.2.1 profile hproper).2 written hwrites⟩

end TestPlan.EnvProfile
